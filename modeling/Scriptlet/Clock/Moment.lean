import Scriptlet.Text.Bytes

/-!
# Moments

A moment is a civil date and time with its distance from universal time.
-/

namespace Scriptlet

structure Moment where
  year : Nat
  month : Nat
  day : Nat
  hour : Nat
  minute : Nat
  second : Nat
  /-- Minutes east of universal time. -/
  offset : Int := 0
  deriving DecidableEq, Repr, Inhabited

namespace Moment

def two (n : Nat) : Bytes := Bytes.padZeros 2 (Bytes.ofNat n)

def clock (m : Moment) : Bytes := Bytes.join (utf8 ":") [two m.hour, two m.minute, two m.second]

def zone (m : Moment) : Bytes :=
  if m.offset == 0 then utf8 "Z"
  else
    let minutes := m.offset.natAbs
    utf8 (if m.offset < 0 then "-" else "+") ++ two (minutes / 60) ++ utf8 ":"
      ++ two (minutes % 60)

def timestamp (m : Moment) : Bytes :=
  Bytes.join (utf8 "-") [Bytes.padZeros 4 (Bytes.ofNat m.year), two m.month, two m.day]
    ++ utf8 "T" ++ m.clock ++ m.zone

/--
The moment so many seconds after the start of 1970, in universal time.  Years
are counted from March, so that a leap day is the last day of its year; a
cycle of 400 years has 146097 days.
-/
def ofSeconds (n : Nat) : Moment :=
  let days := n / 86400 + 719468
  let inCycle := days % 146097
  let yearOfCycle := (inCycle - inCycle / 1460 + inCycle / 36524 - inCycle / 146096) / 365
  let dayOfYear := inCycle - (365 * yearOfCycle + yearOfCycle / 4 - yearOfCycle / 100)
  let monthOfYear := (5 * dayOfYear + 2) / 153
  let month := if monthOfYear < 10 then monthOfYear + 3 else monthOfYear - 9
  let marchYear := days / 146097 * 400 + yearOfCycle
  let time := n % 86400
  { year := if month ≤ 2 then marchYear + 1 else marchYear
    month := month
    day := dayOfYear - (153 * monthOfYear + 2) / 5 + 1
    hour := time / 3600
    minute := time / 60 % 60
    second := time % 60 }

def field? (s : Bytes) (start count : Nat) : Option Nat :=
  let digits := (s.drop start).take count
  if digits.length == count && digits.all Bytes.isDigit then some (Bytes.digitsValue digits)
  else none

def zone? : Bytes → Option Int
  | 0x5A :: [] => some 0
  | sign :: rest => do
    let hours ← field? rest 0 2
    let minutes ← field? rest 3 2
    let total : Int := 60 * hours + minutes
    if sign == 0x2D then some (-total) else if sign == 0x2B then some total else none
  | [] => none

def ofTimestamp? (s : Bytes) : Option Moment := do
  let year ← field? s 0 4
  let month ← field? s 5 2
  let day ← field? s 8 2
  let hour ← field? s 11 2
  let minute ← field? s 14 2
  let second ← field? s 17 2
  let rest := match s.drop 19 with
    | 0x2E :: more => more.dropWhile Bytes.isDigit
    | more => more
  let offset ← zone? rest
  some ⟨year, month, day, hour, minute, second, offset⟩

end Moment

end Scriptlet
