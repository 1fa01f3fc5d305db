import Scriptlet.CommandLine.Flag

/-!
# Requests

The first argument that is neither a flag nor the value of one may name a
command; the flags and operands around it are then read as those of the
command.  What remains is a request.
-/

namespace Scriptlet.CommandLine

/-! ## Commands -/

inductive Command where
  | root
  | run
  | repl
  | tokens
  | tree
  | version
  deriving DecidableEq, Repr, Inhabited

namespace Command

def name : Command → String
  | root => "lox"
  | run => "run"
  | repl => "repl"
  | tokens => "tokens"
  | tree => "ast"
  | version => "version"

def path : Command → Bytes
  | root => utf8 "lox"
  | c => utf8 "lox " ++ utf8 c.name

def named : List Command := [run, repl, tokens, tree, version]

def ofName? (word : Bytes) : Option Command := named.find? fun c => utf8 c.name == word

def ownFlags : Command → List Flag
  | root => [Flag.version]
  | run => [Flag.watch]
  | repl => [Flag.tui]
  | _ => []

def flags (c : Command) : List Flag := Flag.shared ++ Flag.help :: c.ownFlags

/-! ## Finding the command -/

/--
Whether the argument behind a flag is taken for its value while the command
is not yet known: so it is unless the flag is a shared switch or has its value
with it.
-/
def takesNext (word : Bytes) : Bool :=
  if word.contains equals then false
  else
    match Word.ofArgument word with
    | .letters [letter] => !Flag.shared.any (Flag.hasLetter letter)
    | .long name _ => !Flag.shared.any fun flag => flag.isSwitch && flag.name == name
    | .malformed => true
    | _ => false

def split? : List Bytes → Option (Bytes × List Bytes)
  | [] => none
  | word :: rest =>
    if word == [dash, dash] then none
    else if takesNext word then
      match rest with
      | value :: next :: others =>
        (split? (next :: others)).map fun (found, kept) => (found, word :: value :: kept)
      | _ => none
    else if word.isEmpty || word.head? == some dash then
      (split? rest).map fun (found, kept) => (found, word :: kept)
    else some (word, rest)

def find (arguments : List Bytes) : Command × List Bytes :=
  match split? arguments with
  | none => (root, arguments)
  | some (word, others) =>
    match ofName? word with
    | some command => (command, others)
    | none => (root, arguments)

end Command

/-! ## Requests -/

inductive Action where
  | run (path : Bytes)
  | watch (path : Bytes)
  | converse
  | listTokens (path : Bytes)
  | listTree (path : Bytes)
  | describeVersion
  deriving DecidableEq, Repr, Inhabited

inductive Request where
  | help (command : Command)
  | versionNumber
  | perform (command : Command) (options : Options) (action : Action)
  deriving DecidableEq, Repr, Inhabited

namespace Request

def operand : List Bytes → Except UsageError Bytes
  | [path] => .ok path
  | operands => .error (.oneOperandExpected operands.length)

def noOperand (c : Command) : List Bytes → Except UsageError Unit
  | [] => .ok ()
  | word :: _ => .error (.unexpectedOperand word c.path)

def action (c : Command) (o : Options) (operands : List Bytes) : Except UsageError Action :=
  match c with
  | .root =>
    match operands with
    | [] => .ok .converse
    | [path] => .ok (.run path)
    | _ => .error (.tooManyOperands operands.length)
  | .run => (operand operands).map fun path => if o.watch then .watch path else .run path
  | .repl => (noOperand c operands).map fun _ => .converse
  | .tokens => (operand operands).map .listTokens
  | .tree => (operand operands).map .listTree
  | .version => (noOperand c operands).map fun _ => .describeVersion

def ofArguments (arguments : List Bytes) : Except UsageError Request :=
  let (command, own) := Command.find arguments
  match readArguments command.flags own {} [] with
  | .error e => .error e
  | .ok (options, operands) =>
    if options.help then .ok (.help command)
    else if options.version then .ok .versionNumber
    else (action command options operands).map (.perform command options)

end Request

end Scriptlet.CommandLine
