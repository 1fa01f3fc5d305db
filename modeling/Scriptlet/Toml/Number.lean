import Scriptlet.Clock.Moment
import Scriptlet.Decimal.Reader

/-!
# Numbers and dates of documents with tables

Integers are decimal or have a radix mark; numbers with a fraction or an
exponent are decimal; dates and times are those of the calendar.  Underscores
may stand between digits, and a decimal number has no superfluous zeros in
front.
-/

namespace Scriptlet.Toml

/-! ## Forms -/

def underscoresOk (part : Bytes) : Bool :=
  let (ok, digit) := part.foldl (fun (ok, digit) b =>
    (ok && (digit || b != Decimal.underscore), Decimal.isHexDigit b)) (true, false)
  ok && digit

def hasLeadingZero (s : Bytes) : Bool :=
  match s with
  | 0x30 :: b :: _ => !(b == 0x62 || b == 0x6F || b == 0x78)
  | sign :: 0x30 :: _ :: _ => sign == 0x2B || sign == 0x2D
  | _ => false

def pointsOk (s : Bytes) : Bool :=
  let (ok, point) := s.foldl (fun (ok, point) b =>
    (ok && (!point || Bytes.isDigit b), b == Decimal.point)) (true, false)
  ok && !point

/-! ## Integers -/

def bounded? (i : Int) : Option Int :=
  if -0x8000000000000000 ≤ i && i < 0x8000000000000000 then some i else none

def decimalInteger? (s : Bytes) : Option Int :=
  if underscoresOk s && !hasLeadingZero s then
    let (negative, digits) := Decimal.splitSign (Decimal.withoutUnderscores s)
    let n : Int := Bytes.digitsValue digits
    bounded? (if negative then -n else n)
  else none

def radixInteger? (base : Nat) (s : Bytes) : Option Int :=
  if underscoresOk s then
    bounded? ((Decimal.withoutUnderscores s).foldl
      (fun n b => base * n + (Bytes.hexValue? b).getD 0) 0)
  else none

/-! ## Numbers with a fraction or an exponent -/

def isExponentMark (b : UInt8) : Bool := b == 0x65 || b == 0x45

def floatParts (s : Bytes) : List Bytes :=
  (s.splitOnP fun b => b == Decimal.point || isExponentMark b).filter fun part => !part.isEmpty

def isFloat (s : Bytes) : Bool :=
  let parts := floatParts s
  let number := Decimal.read? (Decimal.withoutUnderscores s)
  parts.all underscoresOk && !(parts.head?.any hasLeadingZero) && pointsOk s
    && number.any Float.isFinite

/-! ## Dates and times -/

def isLeapYear (year : Nat) : Bool := year % 4 == 0 && (year % 100 != 0 || year % 400 == 0)

def daysIn (year month : Nat) : Nat :=
  if month == 2 then if isLeapYear year then 29 else 28
  else if [4, 6, 9, 11].contains month then 30
  else 31

def date? (s : Bytes) : Option Bytes := do
  let year ← Moment.field? s 0 4
  let month ← Moment.field? s 5 2
  let day ← Moment.field? s 8 2
  if s[4]? == some 0x2D && s[7]? == some 0x2D && 1 ≤ month && month ≤ 12
      && 1 ≤ day && day ≤ daysIn year month then
    some (s.drop 10)
  else none

def time? (s : Bytes) : Option Bytes := do
  let hour ← Moment.field? s 0 2
  let minute ← Moment.field? s 3 2
  let second ← Moment.field? s 6 2
  if s[2]? == some 0x3A && s[5]? == some 0x3A && hour < 24 && minute < 60 && second < 60 then
    match s.drop 8 with
    | 0x2E :: b :: rest =>
      if Bytes.isDigit b then some (rest.dropWhile Bytes.isDigit) else some (0x2E :: b :: rest)
    | rest => some rest
  else none

/-- A zone is a `Z` or hours and minutes; a whole day or hour more is let pass. -/
def isZone (s : Bytes) : Bool :=
  match s with
  | [0x5A] => true
  | sign :: rest =>
    (sign == 0x2B || sign == 0x2D) && rest.length == 5 && rest[2]? == some 0x3A
      && (Moment.field? rest 0 2).any (· ≤ 24) && (Moment.field? rest 3 2).any (· ≤ 60)
  | [] => false

def normalizeMoment (s : Bytes) : Bytes :=
  s.map fun b => if b == 0x7A then 0x5A else if b == 0x74 || b == 0x20 then 0x54 else b

def isMoment (s : Bytes) : Bool :=
  let s := normalizeMoment s
  match date? s with
  | some [] => true
  | some (0x54 :: rest) => (time? rest).any fun zone => zone.isEmpty || isZone zone
  | some _ => false
  | none => (time? s).any List.isEmpty

end Scriptlet.Toml
