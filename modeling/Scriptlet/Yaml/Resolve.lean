import Scriptlet.Toml.Number
import Scriptlet.Yaml.Node

/-!
# What scalars mean

A plain scalar without a tag is nothing, a truth value, a number, a moment or
else a text, by its form; a quoted one is a text.  A tag for one of these
demands that form, and a scalar with any other tag is a text.
-/

namespace Scriptlet.Yaml

inductive Meaning where
  | null
  | boolean (b : Bool)
  | text (s : Bytes)
  | other
  deriving DecidableEq, Repr, Inhabited

def isOneOf (words : List String) (s : Bytes) : Bool := (words.map utf8).contains s

def isNullWord (s : Bytes) : Bool := s.isEmpty || isOneOf ["~", "null", "Null", "NULL"] s

def boolean? (s : Bytes) : Option Bool :=
  if isOneOf ["true", "True", "TRUE"] s then some true
  else if isOneOf ["false", "False", "FALSE"] s then some false
  else none

/-! ## Integers -/

/-- Whether a number of the sign fits in sixty-four bits, of which one is the sign's. -/
def fits (unsigned : Bool) (sign : Option Bool) (n : Nat) : Bool :=
  match sign with
  | some true => n ≤ 0x8000000000000000
  | some false => n < 0x8000000000000000
  | none => n < (if unsigned then 0x10000000000000000 else 0x8000000000000000)

def splitSign : Bytes → Option Bool × Bytes
  | 0x2B :: rest => (some false, rest)
  | 0x2D :: rest => (some true, rest)
  | s => (none, s)

def digitsIn? (base : Nat) (s : Bytes) : Option Nat :=
  if s.all fun b => (Bytes.hexValue? b).any (· < base) then
    some (s.foldl (fun n b => base * n + (Bytes.hexValue? b).getD 0) 0)
  else none

/-- An unsigned integer; a leading zero means octal digits, and a letter may name the base. -/
def magnitude? (s : Bytes) : Option Nat :=
  match s with
  | [] => none
  | 0x30 :: [] => some 0
  | [0x30, b] => digitsIn? 8 [b]
  | 0x30 :: mark :: rest =>
    let mark := Bytes.lowerAscii mark
    if mark == 0x62 then digitsIn? 2 rest
    else if mark == 0x6F then digitsIn? 8 rest
    else if mark == 0x78 then digitsIn? 16 rest
    else digitsIn? 8 (mark :: rest)
  | s => digitsIn? 10 s

/-- An integer behind the mark of a base may have a sign of its own. -/
def markedInteger (unsigned : Bool) (base : Nat) (negative : Bool) (s : Bytes) : Bool :=
  let (sign, digits) := if negative then (some true, s) else splitSign s
  !digits.isEmpty && (digitsIn? base digits).any (fits unsigned sign)

def isIntegerText (unsigned : Bool) (s : Bytes) : Bool :=
  let (sign, digits) := splitSign s
  (magnitude? digits).any (fits unsigned sign) ||
    match s with
    | 0x30 :: 0x62 :: rest => markedInteger unsigned 2 false rest
    | 0x30 :: 0x6F :: rest => markedInteger unsigned 8 false rest
    | 0x2D :: 0x30 :: 0x62 :: rest => markedInteger unsigned 2 true rest
    | 0x2D :: 0x30 :: 0x6F :: rest => markedInteger unsigned 8 true rest
    | _ => false

def startsNumber (s : Bytes) : Bool :=
  s.head?.any fun b => Bytes.isDigit b || b == 0x2B || b == 0x2D

def isInteger (unsigned : Bool) (s : Bytes) : Bool :=
  startsNumber s && isIntegerText unsigned (Decimal.withoutUnderscores s)

/-! ## Other numbers -/

def isDigits (s : Bytes) : Bool := !s.isEmpty && s.all Bytes.isDigit

def isDecimalForm (s : Bytes) : Bool :=
  let (_, s) := splitSign s
  let isMark (b : UInt8) : Bool := b == 0x65 || b == 0x45
  let body := s.takeWhile fun b => !isMark b
  let bodyOk := match Bytes.cut? Decimal.point body with
    | none => isDigits body
    | some (whole, fraction) =>
      if whole.isEmpty then isDigits fraction
      else isDigits whole && fraction.all Bytes.isDigit
  let exponentOk := match s.dropWhile fun b => !isMark b with
    | [] => true
    | _ :: exponent => isDigits (splitSign exponent).2
  bodyOk && exponentOk

def isReadable (s : Bytes) : Bool := (Decimal.read? s).any Float.isFinite

def isSpecialFloat (s : Bytes) : Bool :=
  isOneOf [".nan", ".NaN", ".NAN", ".inf", ".Inf", ".INF", "+.inf", "+.Inf", "+.INF", "-.inf",
    "-.Inf", "-.INF"] s

/-- An integer is such a number unless it has all sixty-four bits. -/
def isFloat (s : Bytes) : Bool :=
  let digits := Decimal.withoutUnderscores s
  if isInteger true s then isInteger false s
  else
    isSpecialFloat s || (s.head? == some Decimal.point && isReadable s)
      || (startsNumber s && isDecimalForm digits && isReadable digits)

/-! ## Moments -/

def shortNumber? : Bytes → Option (Nat × Bytes)
  | a :: b :: rest =>
    if !Bytes.isDigit a then none
    else if Bytes.isDigit b then some (Bytes.digitsValue [a, b], rest)
    else some (Bytes.digitValue a, b :: rest)
  | [a] => if Bytes.isDigit a then some (Bytes.digitValue a, []) else none
  | [] => none

def markedNumber? (mark : UInt8) : Bytes → Option (Nat × Bytes)
  | b :: rest => if b == mark then shortNumber? rest else none
  | [] => none

def date? (s : Bytes) : Option Bytes := do
  let year ← Moment.field? s 0 4
  let (month, s) ← markedNumber? 0x2D (s.drop 4)
  let (day, s) ← markedNumber? 0x2D s
  if 1 ≤ month && month ≤ 12 && 1 ≤ day && day ≤ Toml.daysIn year month then some s else none

def time? (s : Bytes) : Option Bytes := do
  let (hour, s) ← shortNumber? s
  let (minute, s) ← markedNumber? 0x3A s
  let (second, s) ← markedNumber? 0x3A s
  if hour < 24 && minute < 60 && second < 60 then
    match s with
    | mark :: b :: rest =>
      if (mark == 0x2E || mark == 0x2C) && Bytes.isDigit b then
        some (rest.dropWhile Bytes.isDigit)
      else some s
    | s => some s
  else none

def isTimestamp (s : Bytes) : Bool :=
  match date? s with
  | none => false
  | some [] => true
  | some (b :: rest) =>
    if b == 0x54 || b == 0x74 then (time? rest).any Toml.isZone
    else if b == space then (time? (rest.dropWhile (· == space))).any List.isEmpty
    else false

/-! ## Binary data -/

def sextet? (b : UInt8) : Option Nat :=
  if Bytes.isUpper b then some (b.toNat - 0x41)
  else if Bytes.isLower b then some (b.toNat - 0x61 + 26)
  else if Bytes.isDigit b then some (b.toNat - 0x30 + 52)
  else if b == 0x2B then some 62
  else if b == 0x2F then some 63
  else none

def unpackGroups? (done : Bytes) : Bytes → Option Bytes
  | [] => some done.reverse
  | a :: b :: c :: d :: rest =>
    match sextet? a, sextet? b, sextet? c, sextet? d with
    | some w, some x, some y, some z =>
      let first := UInt8.ofNat (4 * w + x / 16)
      let second := UInt8.ofNat (16 * (x % 16) + y / 4)
      let third := UInt8.ofNat (64 * (y % 4) + z)
      unpackGroups? (third :: second :: first :: done) rest
    | some w, some x, some y, none =>
      if d == 0x3D && rest.isEmpty then
        some ((UInt8.ofNat (16 * (x % 16) + y / 4) :: UInt8.ofNat (4 * w + x / 16) ::
          done).reverse)
      else none
    | some w, some x, none, none =>
      if c == 0x3D && d == 0x3D && rest.isEmpty then
        some ((UInt8.ofNat (4 * w + x / 16) :: done).reverse)
      else none
    | _, _, _, _ => none
  | _ => none

def unpack? (s : Bytes) : Option Bytes :=
  unpackGroups? [] (s.filter fun b => b != 0x0A && b != 0x0D)

/-! ## Scalars -/

def plainMeaning (s : Bytes) : Meaning :=
  if isNullWord s then .null
  else
    match boolean? s with
    | some b => .boolean b
    | none => .text s

/-- The meaning of a scalar; none if it has not the form that its tag demands. -/
def meaning? (tag : Option Bytes) (isPlain : Bool) (s : Bytes) : Option Meaning :=
  let demand (ok : Bool) (meaning : Meaning) : Option Meaning := if ok then some meaning else none
  match tag with
  | none => some (if isPlain then plainMeaning s else .text s)
  | some tag =>
    if tag == utf8 "!!null" then demand (isNullWord s) .null
    else if tag == utf8 "!!bool" then (boolean? s).map Meaning.boolean
    else if tag == utf8 "!!int" then demand (isInteger true s) .other
    else if tag == utf8 "!!float" then demand (isFloat s) .other
    else if tag == utf8 "!!timestamp" then demand (isTimestamp s) .other
    else if tag == utf8 "!!binary" then (unpack? s).map Meaning.text
    else some (.text s)

end Scriptlet.Yaml
