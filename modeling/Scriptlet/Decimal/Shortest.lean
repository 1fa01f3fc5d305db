import Scriptlet.Text.Bytes

/-!
# Shortest decimals

Every finite double is written with the fewest decimal digits that read back
as the same double; of several such decimals the nearest one is taken.  The
search runs over the decimal grids with 1, 2, … 17 digits in exact arithmetic.
-/

namespace Scriptlet.Decimal

/-- What the bits of a double say: a finite one is `mantissa * 2 ^ exponent`. -/
inductive Shape where
  | nan
  | infinite (negative : Bool)
  | finite (negative : Bool) (mantissa : Nat) (exponent : Int)
  deriving DecidableEq, Repr

def hiddenBit : Nat := 0x10000000000000

def leastExponent : Int := -1074

def shape (x : Float) : Shape :=
  let bits := x.toBits.toNat
  let negative := bits / 0x8000000000000000 == 1
  let biased : Nat := bits / hiddenBit % 2048
  let fraction := bits % hiddenBit
  if biased == 2047 then
    if fraction == 0 then .infinite negative else .nan
  else if biased == 0 then .finite negative fraction leastExponent
  else .finite negative (hiddenBit + fraction) ((biased : Int) - 1075)

structure Ratio where
  numerator : Nat
  denominator : Nat
  deriving DecidableEq, Repr

namespace Ratio

def onGrid (r : Ratio) (k : Int) : Ratio :=
  if 0 ≤ k then ⟨r.numerator, r.denominator * Nat.pow 10 k.toNat⟩
  else ⟨r.numerator * Nat.pow 10 (-k).toNat, r.denominator⟩

def belowPower (r : Ratio) (k : Int) : Bool :=
  let scaled := r.onGrid k
  scaled.numerator < scaled.denominator

def roundEven (r : Ratio) : Nat :=
  let q := r.numerator / r.denominator
  let twice := 2 * (r.numerator % r.denominator)
  if twice < r.denominator then q
  else if twice == r.denominator && q % 2 == 0 then q
  else q + 1

end Ratio

def ratio (mantissa : Nat) (exponent : Int) : Ratio :=
  if 0 ≤ exponent then ⟨mantissa * Nat.pow 2 exponent.toNat, 1⟩
  else ⟨mantissa, Nat.pow 2 (-exponent).toNat⟩

/--
The least `p` with `r < 10 ^ p`, searched upwards from an estimate by the
binary logarithms that is never too large.
-/
def magnitude (r : Ratio) : Int :=
  let estimate :=
    ((r.numerator.log2 : Int) - (r.denominator.log2 : Int) - 1) * 30103 / 100000 - 1
  match [0, 1, 2, 3].find? fun (i : Nat) => r.belowPower (estimate + i) with
  | some i => estimate + i
  | none => estimate + 4

/-- The reals that round to a double, all over one denominator. -/
structure Interval where
  low : Nat
  value : Nat
  high : Nat
  denominator : Nat
  closed : Bool
  deriving DecidableEq, Repr

def interval (mantissa : Nat) (exponent : Int) : Interval :=
  let below := if mantissa == hiddenBit && leastExponent < exponent then 1 else 2
  let unit := ratio 1 (exponent - 2)
  { low := (4 * mantissa - below) * unit.numerator
    value := 4 * mantissa * unit.numerator
    high := (4 * mantissa + 2) * unit.numerator
    denominator := unit.denominator
    closed := mantissa % 2 == 0 }

namespace Interval

def holds (i : Interval) (k : Int) (c : Nat) : Bool :=
  let grid := (⟨1, i.denominator⟩ : Ratio).onGrid k
  let point := c * grid.denominator
  let low := i.low * grid.numerator
  let high := i.high * grid.numerator
  if i.closed then low ≤ point && point ≤ high else low < point && point < high

def onGrid? (i : Interval) (k : Int) : Option Nat :=
  let value := (⟨i.value, i.denominator⟩ : Ratio).onGrid k
  let nearest := value.roundEven
  let floor := value.numerator / value.denominator
  let other := if nearest == floor then floor + 1 else floor
  if i.holds k nearest then some nearest
  else if i.holds k other then some other
  else none

end Interval

def dropZeros : (fuel : Nat) → (digits : Nat) → (exponent : Int) → Nat × Int
  | 0, digits, exponent => (digits, exponent)
  | fuel + 1, digits, exponent =>
    if digits % 10 == 0 then dropZeros fuel (digits / 10) (exponent + 1)
    else (digits, exponent)

/-- A decimal `0.d₁d₂… * 10 ^ point`; zero has the one digit `0`. -/
structure Digits where
  digits : Bytes
  point : Int
  deriving DecidableEq, Repr

def shortest (mantissa : Nat) (exponent : Int) : Digits :=
  if mantissa == 0 then ⟨[0x30], 1⟩
  else
    let i := interval mantissa exponent
    let top := magnitude (ratio mantissa exponent)
    let found := (List.range 17).findSome? fun n =>
      (i.onGrid? (top - (n + 1 : Nat))).map fun c => (c, top - ((n + 1 : Nat) : Int))
    let exact := (⟨i.value, i.denominator⟩ : Ratio).onGrid (top - 17)
    let (digits, exponent) := found.getD (exact.roundEven, top - 17)
    let (digits, exponent) := dropZeros 20 digits exponent
    let text := Bytes.ofNat digits
    ⟨text, text.length + exponent⟩

end Scriptlet.Decimal
