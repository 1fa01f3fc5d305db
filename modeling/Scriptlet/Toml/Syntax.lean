import Scriptlet.Toml.Number
import Scriptlet.Toml.Text

/-!
# The syntax of documents with tables

A document is a sequence of statements, one on a line: headers, which open a
table or one more table of an array, and entries with a key and a value.
-/

namespace Scriptlet.Toml

inductive Value where
  | text (s : Bytes)
  | integer (i : Int)
  | boolean (b : Bool)
  | other
  | array (values : List Value)
  | table (entries : List (Path × Value))
  deriving Inhabited

inductive Statement where
  | header (path : Path)
  | arrayHeader (path : Path)
  | entry (key : Path) (value : Value)
  deriving Inhabited

/-! ## Comments and line breaks -/

def skipComment : Bytes → Bytes
  | 0x23 :: rest => rest.dropWhile fun b => !isBreakByte b
  | s => s

def skipLines : (fuel : Nat) → Bytes → Bytes
  | 0, s => s
  | fuel + 1, s =>
    let s := skipComment (skipBlanks s)
    match lineBreak? s with
    | some rest => skipLines fuel rest
    | none => s

def endLine? (s : Bytes) : Option Bytes :=
  let s := skipComment (skipBlanks s)
  if s.isEmpty then some [] else lineBreak? s

/-! ## Numbers -/

def isDateByte (b : UInt8) : Bool := Bytes.isDigit b || (utf8 "-:Tt .Zz+").contains b

def isFloatByte (b : UInt8) : Bool := Bytes.isDigit b || (utf8 "_.-+eE").contains b

def isDecimalByte (b : UInt8) : Bool := Bytes.isDigit b || b == Decimal.underscore

def decimal? (sign s : Bytes) : Option (Value × Bytes) :=
  let body := s.takeWhile isDecimalByte
  let rest := s.dropWhile isDecimalByte
  if !(s.head?.any Bytes.isDigit) then none
  else if rest.head?.any fun b => b == Decimal.point || isExponentMark b then
    if isFloat (sign ++ body ++ rest.takeWhile isFloatByte) then
      some (.other, rest.dropWhile isFloatByte)
    else none
  else (decimalInteger? (sign ++ body)).map fun i => (.integer i, rest)

def moment? (s : Bytes) : Option (Value × Bytes) :=
  let token := Bytes.dropEndWhile (· == space) (s.takeWhile isDateByte)
  if isMoment token then some (.other, s.dropWhile isDateByte) else none

def radix? (base : Nat) (s : Bytes) : Option (Value × Bytes) :=
  let isDigit (b : UInt8) : Bool := (Bytes.hexValue? b).any (· < base)
  let isPart (b : UInt8) : Bool := isDigit b || b == Decimal.underscore
  if s.head?.any isDigit then
    (radixInteger? base (s.takeWhile isPart)).map fun i => (.integer i, s.dropWhile isPart)
  else none

def special? (s : Bytes) : Option (Value × Bytes) :=
  if s.take 3 == utf8 "inf" || s.take 3 == utf8 "nan" then some (.other, s.drop 3) else none

def number? (s : Bytes) : Option (Value × Bytes) :=
  match s with
  | 0x30 :: 0x62 :: rest => radix? 2 rest
  | 0x30 :: 0x6F :: rest => radix? 8 rest
  | 0x30 :: 0x78 :: rest => radix? 16 rest
  | b :: rest =>
    if b == 0x2B || b == 0x2D then (special? rest).or (decimal? [b] rest)
    else if Bytes.isDigit b then
      match s.dropWhile Bytes.isDigit with
      | c :: _ => if c == 0x2D || c == 0x3A then moment? s else decimal? [] s
      | [] => decimal? [] s
    else special? s
  | [] => none

def truth? (s : Bytes) : Option (Value × Bytes) :=
  let word := s.takeWhile Bytes.isLetter
  let rest := s.dropWhile Bytes.isLetter
  if word == utf8 "true" then some (.boolean true, rest)
  else if word == utf8 "false" then some (.boolean false, rest)
  else none

/-! ## Values -/

mutual

def value? : (fuel : Nat) → Bytes → Option (Value × Bytes)
  | 0, _ => none
  | fuel + 1, s =>
    match s with
    | 0x5B :: rest => array? fuel [] (skipLines rest.length rest)
    | 0x7B :: rest =>
      match skipBlanks rest with
      | 0x7D :: more => some (.table [], more)
      | more => inline? fuel [] more
    | 0x22 :: _ | 0x27 :: _ => (text? s).map fun (text, rest) => (.text text, rest)
    | s => (truth? s).or (number? s)

def array? : (fuel : Nat) → (done : List Value) → Bytes → Option (Value × Bytes)
  | 0, _, _ => none
  | fuel + 1, done, s =>
    match s with
    | 0x5D :: rest => some (.array done.reverse, rest)
    | s =>
      match value? fuel s with
      | none => none
      | some (value, rest) =>
        match skipLines rest.length rest with
        | 0x2C :: rest => array? fuel (value :: done) (skipLines rest.length rest)
        | 0x5D :: rest => some (.array (value :: done).reverse, rest)
        | _ => none

def inline? : (fuel : Nat) → (done : List (Path × Value)) → Bytes → Option (Value × Bytes)
  | 0, _, _ => none
  | fuel + 1, done, s =>
    match key? (s.length + 1) s with
    | some (key, 0x3D :: rest) =>
      match value? fuel (skipBlanks rest) with
      | none => none
      | some (value, rest) =>
        match skipBlanks rest with
        | 0x2C :: rest => inline? fuel ((key, value) :: done) (skipBlanks rest)
        | 0x7D :: rest => some (.table ((key, value) :: done).reverse, rest)
        | _ => none
    | _ => none

end

/-! ## Statements -/

def statement? (s : Bytes) : Option (Statement × Bytes) :=
  match s with
  | 0x5B :: 0x5B :: rest =>
    match key? (rest.length + 1) rest with
    | some (path, 0x5D :: 0x5D :: rest) => some (.arrayHeader path, rest)
    | _ => none
  | 0x5B :: rest =>
    match key? (rest.length + 1) rest with
    | some (path, 0x5D :: rest) => some (.header path, rest)
    | _ => none
  | s =>
    match key? (s.length + 1) s with
    | some (key, 0x3D :: rest) =>
      (value? (rest.length + 1) (skipBlanks rest)).map fun (value, rest) =>
        (.entry key value, rest)
    | _ => none

def statementsFrom (done : List Statement) : (fuel : Nat) → Bytes → Option (List Statement)
  | 0, _ => none
  | fuel + 1, s =>
    match skipLines s.length s with
    | [] => some done.reverse
    | s =>
      match statement? s with
      | none => none
      | some (statement, rest) =>
        match endLine? rest with
        | none => none
        | some rest => statementsFrom (statement :: done) fuel rest

/-! ## Characters -/

def withoutMark : Bytes → Bytes
  | 0xFF :: 0xFE :: rest => rest
  | 0xFE :: 0xFF :: rest => rest
  | 0xEF :: 0xBB :: 0xBF :: rest => rest
  | s => s

def isControl (b : UInt8) : Bool := (b < 0x20 && b != 0x09 && !isBreakByte b) || b == 0x7F

/-- There are no controls but tabs and line breaks, of which a carriage return is a part only. -/
def controlsOk : Bytes → Bool
  | [] => true
  | [b] => !isControl b && b != 0x0D
  | b :: c :: rest => !isControl b && (b != 0x0D || c == newline) && controlsOk (c :: rest)

def statements? (s : Bytes) : Option (List Statement) :=
  let s := withoutMark s
  if Utf8.isValid s && controlsOk s then statementsFrom [] (s.length + 1) s else none

end Scriptlet.Toml
