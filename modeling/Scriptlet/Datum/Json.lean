import Scriptlet.Datum.Basic
import Scriptlet.Text.Utf8

/-!
# Data as JSON

One line of JSON without blanks.  A number that is not finite has no JSON
form, and then neither has the value around it.
-/

namespace Scriptlet.Json

def escapesByNumber (code : Nat) : Bool :=
  code < 0x20 || code == 0x3C || code == 0x3E || code == 0x26
    || code == 0x2028 || code == 0x2029

def escapeLetter? (code : Nat) : Option Char :=
  match Char.ofNat code with
  | '"' => some '"'
  | '\\' => some '\\'
  | '\x08' => some 'b'
  | '\x0c' => some 'f'
  | '\n' => some 'n'
  | '\r' => some 'r'
  | '\t' => some 't'
  | _ => none

/-- Releases of the encoder differ in how they replace a byte that is no character: they write the
replacement character by its number or as it is. -/
inductive Replacement where
  | escaped
  | literal
  deriving DecidableEq, Repr, Inhabited

def Replacement.bytes : Replacement → Bytes
  | escaped => utf8 "\\u" ++ Bytes.hex 4 0xFFFD
  | literal => Rune.replacement

def rune (replacement : Replacement) : Rune → Bytes
  | .stray _ => replacement.bytes
  | .char code encoded =>
    match escapeLetter? code with
    | some letter => [0x5C, letter.toUInt8]
    | none =>
      if escapesByNumber code then utf8 "\\u" ++ Bytes.hex 4 code else encoded

def string (replacement : Replacement) (s : Bytes) : Bytes :=
  quote :: (Utf8.runes s).flatMap (rune replacement) ++ [quote]

def number? (x : Float) : Option Bytes :=
  match Decimal.shape x with
  | .finite .. => some (Decimal.json.write x)
  | _ => none

def comma : Bytes := [0x2C]

def array (items : List Bytes) : Bytes := utf8 "[" ++ Bytes.join comma items ++ utf8 "]"

def object (members : List Bytes) : Bytes :=
  utf8 "\x7b" ++ Bytes.join comma members ++ utf8 "\x7d"

section

variable (replacement : Replacement)

mutual

def ofDatum? : Datum → Option Bytes
  | .nil => some (utf8 "null")
  | .int i => some (Bytes.ofInt i)
  | .float x => number? x
  | .text s => some (string replacement s)
  | .bool b => some (utf8 (if b then "true" else "false"))
  | .list items => (items? items).map array
  | .map entries => (members? entries).map object
  | .error _ exported => (members? exported).map object

def items? : List Datum → Option (List Bytes)
  | [] => some []
  | item :: items =>
    match ofDatum? item, items? items with
    | some first, some rest => some (first :: rest)
    | _, _ => none

def members? : List (Bytes × Datum) → Option (List Bytes)
  | [] => some []
  | (key, value) :: entries =>
    match ofDatum? value, members? entries with
    | some first, some rest =>
      some ((string replacement key ++ utf8 ":" ++ first) :: rest)
    | _, _ => none

end

end

end Scriptlet.Json
