import Scriptlet.Text.Bytes

/-!
# Durations

Spans of time in nanoseconds, and their text: hours, minutes and seconds from
one second upwards, a single smaller unit below, fractions without trailing
zeros.  The reader accepts any sequence of numbers with units.
-/

namespace Scriptlet

/-- A number of nanoseconds between `-2 ^ 63` and `2 ^ 63 - 1`. -/
structure Duration where
  nanoseconds : Int
  deriving DecidableEq, Repr, Inhabited

namespace Duration

def microsecond : Nat := 1000

def millisecond : Nat := 1000000

def second : Nat := 1000000000

def ofMilliseconds (n : Nat) : Duration := ⟨n * millisecond⟩

def milliseconds (d : Duration) : Float := Float.ofInt d.nanoseconds / 1000000

/-! ## Text -/

def fractional (n places : Nat) : Bytes :=
  let fraction := Bytes.padZeros places (Bytes.ofNat (n % Nat.pow 10 places))
  let kept := Bytes.dropEndWhile (· == 0x30) fraction
  let whole := Bytes.ofNat (n / Nat.pow 10 places)
  if n % Nat.pow 10 places == 0 then whole else whole ++ 0x2E :: kept

def magnitudeText (n : Nat) : Bytes :=
  if n == 0 then utf8 "0s"
  else if n < microsecond then Bytes.ofNat n ++ utf8 "ns"
  else if n < millisecond then fractional n 3 ++ utf8 "µs"
  else if n < second then fractional n 6 ++ utf8 "ms"
  else
    let seconds := fractional (n % (60 * second)) 9 ++ utf8 "s"
    let minutes := n / (60 * second)
    if minutes == 0 then seconds
    else if minutes < 60 then Bytes.ofNat minutes ++ utf8 "m" ++ seconds
    else
      Bytes.ofNat (minutes / 60) ++ utf8 "h" ++ Bytes.ofNat (minutes % 60) ++ utf8 "m"
        ++ seconds

def text (d : Duration) : Bytes :=
  if d.nanoseconds < 0 then 0x2D :: magnitudeText d.nanoseconds.natAbs
  else magnitudeText d.nanoseconds.natAbs

/-! ## Reading -/

inductive Problem where
  | invalid
  | missingUnit
  | unknownUnit (unit : Bytes)
  deriving DecidableEq, Repr

/-- A text between quotes; bytes outside ASCII and controls are hexadecimal. -/
def cited (s : Bytes) : Bytes :=
  let byte (b : UInt8) : Bytes :=
    if b < 0x20 || 0x80 ≤ b then utf8 "\\x" ++ Bytes.hex 2 b.toNat
    else if b == quote || b == 0x5C then [0x5C, b]
    else [b]
  quote :: s.flatMap byte ++ [quote]

def Problem.message (source : Bytes) : Problem → Bytes
  | invalid => utf8 "time: invalid duration " ++ cited source
  | missingUnit => utf8 "time: missing unit in duration " ++ cited source
  | unknownUnit unit =>
    utf8 "time: unknown unit " ++ cited unit ++ utf8 " in duration " ++ cited source

def units : List (Bytes × Nat) :=
  [(utf8 "ns", 1), (utf8 "us", microsecond), (utf8 "µs", microsecond),
    (utf8 "μs", microsecond), (utf8 "ms", millisecond), (utf8 "s", second),
    (utf8 "m", 60 * second), (utf8 "h", 3600 * second)]

def limit : Nat := 0x8000000000000000

def fraction (digits : Bytes) : Nat × Nat :=
  let step (state : Nat × Nat × Bool) (b : UInt8) : Nat × Nat × Bool :=
    let (value, scale, full) := state
    let next := 10 * value + Bytes.digitValue b
    if full || (limit - 1) / 10 < value || limit < next then (value, scale, true)
    else (next, 10 * scale, false)
  let (value, scale, _) := digits.foldl step (0, 1, false)
  (value, scale)

/--
The whole nanoseconds of `value / scale` units, with a product in floating point.
Where `scale` divides the unit, that product is exact: `value` is less than `scale`,
so that all factors and the product are no more than the unit, which is below
`2 ^ 53`.  It is then taken in integers.
-/
def fractionNanoseconds (unit value scale : Nat) : Nat :=
  if unit % scale == 0 then value * (unit / scale)
  else (Float.ofNat value * (Float.ofNat unit / Float.ofNat scale)).toUInt64.toNat

def term (s : Bytes) : Except Problem (Nat × Bytes) :=
  let whole := s.takeWhile Bytes.isDigit
  let value := Bytes.digitsValue whole
  let (digits, rest) := match s.dropWhile Bytes.isDigit with
    | 0x2E :: more => (more.takeWhile Bytes.isDigit, more.dropWhile Bytes.isDigit)
    | more => ([], more)
  if limit < value || (whole.isEmpty && digits.isEmpty) then .error .invalid
  else
    let isName (b : UInt8) := !(b == 0x2E || Bytes.isDigit b)
    let name := rest.takeWhile isName
    if name.isEmpty then .error .missingUnit
    else
      match units.find? fun entry => entry.1 == name with
      | none => .error (.unknownUnit name)
      | some (_, unit) =>
        let (part, scale) := fraction digits
        let total := value * unit + fractionNanoseconds unit part scale
        if limit / unit < value || limit < total then .error .invalid
        else .ok (total, rest.dropWhile isName)

/--
Adds up terms until the text ends; `fuel` bounds their number.  Sums are taken
in words of 64 bits.
-/
def terms : (fuel : Nat) → (sum : Nat) → Bytes → Except Problem Nat
  | 0, _, _ => .error .invalid
  | fuel + 1, sum, s =>
    match term s with
    | .error problem => .error problem
    | .ok (n, rest) =>
      let sum := (sum + n) % 0x10000000000000000
      if limit < sum then .error .invalid
      else if rest.isEmpty then .ok sum
      else terms fuel sum rest

def magnitude? (s : Bytes) : Except Problem Nat :=
  if s == utf8 "0" then .ok 0 else terms s.length 0 s

def parse (s : Bytes) : Except Problem Duration :=
  let signed (negative : Bool) (rest : Bytes) : Except Problem Duration :=
    match magnitude? rest with
    | .error problem => .error problem
    | .ok n =>
      if negative then .ok ⟨-(n : Int)⟩
      else if limit ≤ n then .error .invalid
      else .ok ⟨n⟩
  match s with
  | 0x2B :: rest => signed false rest
  | 0x2D :: rest => signed true rest
  | _ => signed false s

end Duration

end Scriptlet
