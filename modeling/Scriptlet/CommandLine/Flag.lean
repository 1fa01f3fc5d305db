import Scriptlet.Settings.Basic

/-!
# Flags

A flag has a name, written after two dashes, and may have a letter, written
after one.  A text flag takes a value; a switch takes one only after an equals
sign, and is on without it.  Flags and operands may stand in any order, up to
a lone pair of dashes.
-/

namespace Scriptlet.CommandLine

structure Options where
  config : Bytes := []
  logLevel : Bytes := []
  verbose : Bool := false
  noColor : Bool := false
  help : Bool := false
  version : Bool := false
  watch : Bool := false
  tui : Bool := false
  deriving DecidableEq, Repr, Inhabited

def Options.patch (o : Options) : Patch :=
  { logLevel :=
      if o.verbose then some (utf8 "debug")
      else if o.logLevel.isEmpty then none
      else some o.logLevel
    color := if o.noColor then some false else none
    tui := if o.tui then some true else none }

inductive Flag where
  | text (name : String) (assign : Bytes → Options → Options)
  | switch (name : String) (letter : Option Char) (assign : Bool → Options → Options)

namespace Flag

def name : Flag → Bytes
  | text name _ => utf8 name
  | switch name _ _ => utf8 name

def isSwitch : Flag → Bool
  | text _ _ => false
  | switch _ _ _ => true

def hasLetter (letter : UInt8) : Flag → Bool
  | text _ _ => false
  | switch _ own _ => own.map Char.toUInt8 == some letter

def label : Flag → Bytes
  | text name _ => utf8 "--" ++ utf8 name
  | switch name none _ => utf8 "--" ++ utf8 name
  | switch name (some letter) _ =>
    utf8 "-" ++ [letter.toUInt8] ++ utf8 ", --" ++ utf8 name

def shared : List Flag :=
  [text "config" fun v o => { o with config := v },
    text "log-level" fun v o => { o with logLevel := v },
    switch "verbose" (some 'v') fun b o => { o with verbose := b },
    switch "no-color" none fun b o => { o with noColor := b }]

def help : Flag := switch "help" (some 'h') fun b o => { o with help := b }

def version : Flag := switch "version" none fun b o => { o with version := b }

def watch : Flag := switch "watch" (some 'w') fun b o => { o with watch := b }

def tui : Flag := switch "tui" none fun b o => { o with tui := b }

end Flag

/-! ## Usage errors -/

inductive UsageError where
  | malformedFlag (word : Bytes)
  | unknownFlag (name : Bytes)
  | unknownLetter (letter : UInt8) (letters : Bytes)
  | missingValue (word : Bytes)
  | invalidValue (value label : Bytes)
  | tooManyOperands (received : Nat)
  | oneOperandExpected (received : Nat)
  | unexpectedOperand (word command : Bytes)
  deriving DecidableEq, Repr

def UsageError.message : UsageError → Bytes
  | malformedFlag word => utf8 "bad flag syntax: " ++ word
  | unknownFlag name => utf8 "unknown flag: --" ++ name
  | unknownLetter letter letters =>
    utf8 "unknown shorthand flag: " ++ Quoted.character letter.toNat ++ utf8 " in -" ++ letters
  | missingValue word => utf8 "flag needs an argument: " ++ word
  | invalidValue value label =>
    utf8 "invalid argument " ++ Quoted.quoted value ++ utf8 " for " ++ Quoted.quoted label
      ++ utf8 " flag: strconv.ParseBool: parsing " ++ Quoted.quoted value
      ++ utf8 ": invalid syntax"
  | tooManyOperands received =>
    utf8 "accepts at most 1 arg(s), received " ++ Bytes.ofNat received
  | oneOperandExpected received => utf8 "accepts 1 arg(s), received " ++ Bytes.ofNat received
  | unexpectedOperand word command =>
    utf8 "unknown command " ++ Quoted.quoted word ++ utf8 " for " ++ Quoted.quoted command

/-! ## Reading -/

inductive Word where
  | operand
  | endOfFlags
  | letters (letters : Bytes)
  | long (name : Bytes) (value : Option Bytes)
  | malformed
  deriving DecidableEq, Repr

def dash : UInt8 := 0x2D

def equals : UInt8 := 0x3D

namespace Word

def ofLong (body : Bytes) : Word :=
  match Bytes.cut? equals body with
  | some (name, value) => long name (some value)
  | none => long body none

def ofArgument (s : Bytes) : Word :=
  match s with
  | first :: second :: rest =>
    if first != dash then operand
    else if second != dash then letters (second :: rest)
    else
      match rest with
      | [] => endOfFlags
      | b :: _ => if b == dash || b == equals then malformed else ofLong rest
  | _ => operand

end Word

def Flag.set (flag : Flag) (value : Bytes) (o : Options) : Except UsageError Options :=
  match flag with
  | .text _ assign => .ok (assign value o)
  | .switch _ _ assign =>
    match Patch.boolean? value with
    | some b => .ok (assign b o)
    | none => .error (.invalidValue value flag.label)

def onWord : Bytes := utf8 "true"

/--
Reads the letters behind one dash; a value may follow the last of them after
an equals sign.  Letters that start with `test.` are passed over.
-/
def readLetters (flags : List Flag) : Bytes → Options → Except UsageError Options
  | [], o => .ok o
  | letter :: rest, o =>
    if (utf8 "test.").isPrefixOf (letter :: rest) then .ok o
    else
      match flags.find? (Flag.hasLetter letter) with
      | none => .error (.unknownLetter letter (letter :: rest))
      | some flag =>
        match rest with
        | sign :: first :: value =>
          if sign == equals then flag.set (first :: value) o
          else
            match flag.set onWord o with
            | .ok o => readLetters flags (sign :: first :: value) o
            | .error e => .error e
        | rest =>
          match flag.set onWord o with
          | .ok o => readLetters flags rest o
          | .error e => .error e

def readArguments (flags : List Flag) : List Bytes → Options → (operands : List Bytes) →
    Except UsageError (Options × List Bytes)
  | [], o, operands => .ok (o, operands.reverse)
  | word :: rest, o, operands =>
    match Word.ofArgument word with
    | .operand => readArguments flags rest o (word :: operands)
    | .endOfFlags => .ok (o, operands.reverse ++ rest)
    | .malformed => .error (.malformedFlag word)
    | .letters letters =>
      match readLetters flags letters o with
      | .ok o => readArguments flags rest o operands
      | .error e => .error e
    | .long name value =>
      match flags.find? fun flag => flag.name == name with
      | none => .error (.unknownFlag name)
      | some flag =>
        match value with
        | some value =>
          match flag.set value o with
          | .ok o => readArguments flags rest o operands
          | .error e => .error e
        | none =>
          match flag with
          | .switch _ _ assign => readArguments flags rest (assign true o) operands
          | .text _ assign =>
            match rest with
            | [] => .error (.missingValue word)
            | value :: others => readArguments flags others (assign value o) operands

end Scriptlet.CommandLine
