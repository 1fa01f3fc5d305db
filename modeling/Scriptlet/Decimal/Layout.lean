import Scriptlet.Decimal.Shortest

/-!
# Layouts of numbers

How the digits of a double become text.  A layout says for which decimal
exponents the positional form is used and how wide a written exponent is.
-/

namespace Scriptlet.Decimal

structure Layout where
  least : Option Int
  most : Option Int
  exponentWidth : Nat
  deriving DecidableEq, Repr

def plain : Layout := ⟨none, none, 2⟩

def general : Layout := ⟨some (-4), some 5, 2⟩

def json : Layout := ⟨some (-6), some 20, 1⟩

def zeros (n : Nat) : Bytes := List.replicate n 0x30

def positional (d : Digits) : Bytes :=
  if d.point ≤ 0 then utf8 "0." ++ zeros (-d.point).toNat ++ d.digits
  else
    let whole := d.point.toNat
    if d.digits.length ≤ whole then d.digits ++ zeros (whole - d.digits.length)
    else d.digits.take whole ++ 0x2E :: d.digits.drop whole

def scientific (width : Nat) (d : Digits) : Bytes :=
  let exponent := d.point - 1
  let fraction := match d.digits.drop 1 with
    | [] => []
    | more => 0x2E :: more
  let sign := if exponent < 0 then utf8 "e-" else utf8 "e+"
  d.digits.take 1 ++ fraction ++ sign
    ++ Bytes.padZeros width (Bytes.ofNat exponent.natAbs)

def Layout.digits (l : Layout) (d : Digits) : Bytes :=
  let exponent := d.point - 1
  if l.least.any (exponent < ·) || l.most.any (· < exponent) then
    scientific l.exponentWidth d
  else positional d

def signed (negative : Bool) (text : Bytes) : Bytes :=
  if negative then 0x2D :: text else text

def Layout.write (l : Layout) (x : Float) : Bytes :=
  match shape x with
  | .nan => utf8 "NaN"
  | .infinite negative => if negative then utf8 "-Inf" else utf8 "+Inf"
  | .finite negative mantissa exponent =>
    signed negative (l.digits (shortest mantissa exponent))

/-- Exactly `places` fractional digits; a half goes to the even digit. -/
def fixedDigits (places mantissa : Nat) (exponent : Int) : Bytes :=
  let scaled := ((ratio mantissa exponent).onGrid (-(places : Int))).roundEven
  let digits := Bytes.padZeros (places + 1) (Bytes.ofNat scaled)
  let whole := digits.take (digits.length - places)
  let fraction := digits.drop (digits.length - places)
  if places == 0 then whole else whole ++ 0x2E :: fraction

def fixed (places : Nat) (x : Float) : Bytes :=
  match shape x with
  | .nan => utf8 "NaN"
  | .infinite negative => if negative then utf8 "-Inf" else utf8 "+Inf"
  | .finite negative mantissa exponent =>
    signed negative (fixedDigits places mantissa exponent)

end Scriptlet.Decimal
