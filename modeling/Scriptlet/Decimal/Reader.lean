import Scriptlet.Text.Bytes

/-!
# Reading numbers

A number is an optional sign and one of: `inf`, `infinity`, `nan` (no sign) in
any case; decimal digits with an optional point and an optional `e` exponent;
`0x` hexadecimal digits with an optional point and a `p` exponent, which is a
power of two.  Single underscores may stand between digits.  The result is
the nearest double, and an infinity where that overflows.  An exponent counts
only as far as it has to be read to know that no number of ordinary length
could make up for it.
-/

namespace Scriptlet.Decimal

def negativeIf (negative : Bool) (x : Float) : Float := if negative then -x else x

def infinity : Float := Float.ofBits 0x7FF0000000000000

def notANumber : Float := Float.ofBits 0x7FF8000000000001

def nearest (digits count : Nat) (exponent : Int) : Float :=
  if digits == 0 then 0
  else if 400 < count + exponent then infinity
  else if count + exponent < -400 then 0
  else Float.ofScientific digits (exponent < 0) exponent.natAbs

def nearestBinary (mantissa : Nat) (exponent : Int) : Float :=
  if mantissa == 0 then 0
  else if 1100 < mantissa.log2 + exponent then infinity
  else if mantissa.log2 + exponent < -1200 then 0
  else if 0 ≤ exponent then Float.ofScientific (mantissa * Nat.pow 2 exponent.toNat) false 0
  else Float.ofScientific (mantissa * Nat.pow 5 exponent.natAbs) true exponent.natAbs

/-! ## The parts of a numeral -/

def underscore : UInt8 := 0x5F

def point : UInt8 := 0x2E

def splitSign : Bytes → Bool × Bytes
  | 0x2B :: rest => (false, rest)
  | 0x2D :: rest => (true, rest)
  | s => (false, s)

inductive Preceding where
  | digit
  | underscore
  | other
  deriving DecidableEq, Repr

def underscoresFrom (isDigit : UInt8 → Bool) : Preceding → Bytes → Bool
  | last, [] => last != .underscore
  | last, b :: rest =>
    if isDigit b then underscoresFrom isDigit .digit rest
    else if b == underscore then
      last == .digit && underscoresFrom isDigit .underscore rest
    else last != .underscore && underscoresFrom isDigit .other rest

def isHexDigit (b : UInt8) : Bool := (Bytes.hexValue? b).isSome

def splitRadix? : Bytes → Option (UInt8 × Bytes)
  | 0x30 :: mark :: rest =>
    let mark := Bytes.lowerAscii mark
    if mark == 0x62 || mark == 0x6F || mark == 0x78 then some (mark, rest) else none
  | _ => none

/-- A radix mark counts as a digit for the underscore that follows it. -/
def underscoresOk (unsigned : Bytes) : Bool :=
  match splitRadix? unsigned with
  | some (mark, rest) =>
    underscoresFrom (if mark == 0x78 then isHexDigit else Bytes.isDigit) .digit rest
  | none => underscoresFrom Bytes.isDigit .other unsigned

def withoutUnderscores (s : Bytes) : Bytes := s.filter (· != underscore)

/-- The number of an exponent; once it has reached 10000, further digits do not count. -/
def exponentValue (digits : Bytes) : Nat :=
  digits.foldl (fun n b => if n < 10000 then 10 * n + Bytes.digitValue b else n) 0

def exponent? (s : Bytes) : Option Int :=
  let (negative, digits) := splitSign s
  match digits with
  | [] => none
  | first :: _ =>
    if Bytes.isDigit first && digits.all fun b => Bytes.isDigit b || b == underscore then
      let value : Int := exponentValue (withoutUnderscores digits)
      some (if negative then -value else value)
    else none

def mantissa? (isDigit : UInt8 → Bool) (s : Bytes) : Option (Bytes × Bytes) :=
  let (whole, fraction) := (Bytes.cut? point s).getD (s, [])
  if (whole ++ fraction).all isDigit && !(whole.isEmpty && fraction.isEmpty) then
    some (whole, fraction)
  else none

def decimal? (s : Bytes) : Option Float :=
  let isE (b : UInt8) := Bytes.lowerAscii b == 0x65
  let body := withoutUnderscores (s.takeWhile fun b => !isE b)
  let tail := s.dropWhile fun b => !isE b
  match mantissa? Bytes.isDigit body with
  | none => none
  | some (whole, fraction) =>
    let digits := (whole ++ fraction).dropWhile (· == 0x30)
    let read (e : Int) :=
      nearest (Bytes.digitsValue digits) digits.length (e - fraction.length)
    match tail with
    | [] => some (read 0)
    | _ :: tail => (exponent? tail).map read

def hexDigitsValue (s : Bytes) : Nat :=
  s.foldl (fun n b => 16 * n + (Bytes.hexValue? b).getD 0) 0

def hexadecimal? (s : Bytes) : Option Float :=
  let isP (b : UInt8) := Bytes.lowerAscii b == 0x70
  let body := withoutUnderscores (s.takeWhile fun b => !isP b)
  match mantissa? isHexDigit body, s.dropWhile fun b => !isP b with
  | some (whole, fraction), _ :: tail =>
    (exponent? tail).map fun e =>
      nearestBinary (hexDigitsValue (whole ++ fraction)) (e - 4 * fraction.length)
  | _, _ => none

def read? (s : Bytes) : Option Float :=
  let (negative, unsigned) := splitSign s
  let word := unsigned.map Bytes.lowerAscii
  if word == utf8 "inf" || word == utf8 "infinity" then
    some (negativeIf negative infinity)
  else if s.map Bytes.lowerAscii == utf8 "nan" then some notANumber
  else if unsigned.contains underscore && !underscoresOk unsigned then none
  else
    let magnitude := match splitRadix? unsigned with
      | some (mark, rest) =>
        if mark == 0x78 && !rest.isEmpty then hexadecimal? rest else none
      | none => decimal? unsigned
    magnitude.map (negativeIf negative)

end Scriptlet.Decimal
