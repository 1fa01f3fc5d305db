import Scriptlet.Decimal.Layout
import Scriptlet.Template.Options

/-!
# Numbers in templates

Integers are written in a base, as a character or as a code point; doubles in
decimal digits, in hexadecimal digits, or as an integer times a power of two.
Zeros that fill a number up to its width stand behind its sign.
-/

namespace Scriptlet.Template

/-! ## Integers -/

def inBase (base n : Nat) : Bytes := (Nat.toDigits base n).map fun c => c.toUInt8

/--
Fills the digits of an integer up with zeros to the precision, or else to the
width if that is asked for; the sign counts as a part of the width.
-/
def fillDigits (o : Options) (sign digits : Bytes) : Bytes :=
  match o.precision with
  | some places => Bytes.padZeros places digits
  | none =>
    if o.fillsZeros then Bytes.padZeros (o.width.getD 0 - sign.length) digits else digits

/-- An integer whose filled digits get a mark; zero with precision zero is nothing. -/
def markedInteger (o : Options) (digits : Nat → Bytes) (mark : Bytes → Bytes) (i : Int) :
    Bytes :=
  if o.precision == some 0 && i == 0 then Bytes.spaces (o.width.getD 0)
  else
    let sign := o.sign (i < 0)
    o.padBlank (sign ++ mark (fillDigits o sign (digits i.natAbs)))

def octalMark (o : Options) (digits : Bytes) : Bytes :=
  if o.sharp && digits.head? != some 0x30 then 0x30 :: digits else digits

def codePoint (i : Int) : Nat :=
  let code := i.toNat
  if i < 0 || 0x10FFFF < code || (0xD800 ≤ code && code ≤ 0xDFFF) then 0xFFFD else code

/-- A negative integer counts as its sixty-four bit complement. -/
def unsigned (i : Int) : Nat := (if i < 0 then i + 0x10000000000000000 else i).toNat

def codeNotation (o : Options) (i : Int) : Bytes :=
  let code := unsigned i
  let digits := Bytes.padZeros (max 4 (o.precision.getD 0)) (capitals (inBase 16 code))
  let character : Bytes :=
    if o.sharp && Printable.isPrintable code then utf8 " '" ++ Rune.encode code ++ utf8 "'"
    else []
  o.padBlank (utf8 "U+" ++ digits ++ character)

def integer? (o : Options) (verb : Char) (i : Int) : Option Bytes :=
  let sharply (mark : String) (digits : Bytes) : Bytes :=
    if o.sharp then utf8 mark ++ digits else digits
  match verb with
  | 'v' | 'd' => some (markedInteger o Bytes.ofNat id i)
  | 'b' => some (markedInteger o (inBase 2) (sharply "0b") i)
  | 'o' => some (markedInteger o (inBase 8) (octalMark o) i)
  | 'O' => some (markedInteger o (inBase 8) (fun s => utf8 "0o" ++ octalMark o s) i)
  | 'x' => some (markedInteger o (inBase 16) (sharply "0x") i)
  | 'X' => some (markedInteger o (fun n => capitals (inBase 16 n)) (sharply "0X") i)
  | 'c' => some (o.pad (Rune.encode (codePoint i)))
  | 'q' =>
    some (o.pad ((if o.plus then Quoted.characterAscii else Quoted.character) (codePoint i)))
  | 'U' => some (codeNotation o i)
  | _ => none

/-! ## Doubles -/

def significant (places mantissa : Nat) (exponent : Int) : Decimal.Digits :=
  if mantissa == 0 then ⟨List.replicate places 0x30, 1⟩
  else
    let r := Decimal.ratio mantissa exponent
    let top := Decimal.magnitude r
    let digits := Bytes.ofNat (r.onGrid (top - places)).roundEven
    let surplus := digits.length - places
    ⟨digits.take places, top + surplus⟩

def roundedGeneral (places mantissa : Nat) (exponent : Int) : Bytes :=
  let d := significant places mantissa exponent
  let kept := match Bytes.dropEndWhile (· == 0x30) d.digits with
    | [] => utf8 "0"
    | digits => digits
  let most : Nat :=
    if kept.length < places && d.point ≤ kept.length then kept.length else places
  let layout : Decimal.Layout := ⟨some (-4), some ((most : Int) - 1), 2⟩
  layout.digits ⟨kept, d.point⟩

def general (precision : Option Nat) (mantissa : Nat) (exponent : Int) : Bytes :=
  match precision with
  | none => Decimal.general.digits (Decimal.shortest mantissa exponent)
  | some places => roundedGeneral (max places 1) mantissa exponent

def scientific (places mantissa : Nat) (exponent : Int) : Bytes :=
  Decimal.scientific 2 (significant (places + 1) mantissa exponent)

def binaryExponent (width : Nat) (exponent : Int) : Bytes :=
  utf8 (if exponent < 0 then "p-" else "p+")
    ++ Bytes.padZeros width (Bytes.ofNat exponent.natAbs)

def stored (mantissa : Nat) (exponent : Int) : Bytes :=
  Bytes.ofNat mantissa ++ binaryExponent 1 exponent

def normalize (mantissa : Nat) (exponent : Int) : Nat × Int :=
  let shift := 52 - mantissa.log2
  (mantissa * Nat.pow 2 shift, exponent - shift)

/--
One binary digit, a point and hexadecimal digits, times a power of two.  A
precision below thirteen rounds, and a half goes to the even digit; without
one the zeros at the end are left out.
-/
def hexadecimal (precision : Option Nat) (mantissa : Nat) (exponent : Int) : Bytes :=
  let (m, e) := if mantissa == 0 then (0, 0) else
    let (m, e) := normalize mantissa exponent
    (m, e + 52)
  let places := min 13 (precision.getD 13)
  let kept := (⟨m, Nat.pow 16 (13 - places)⟩ : Decimal.Ratio).roundEven
  let unit := Nat.pow 16 places
  let (kept, e) := if 2 * unit ≤ kept then (unit, e + 1) else (kept, e)
  let digits := Bytes.hex places (kept % unit)
  let fraction := match precision with
    | none => Bytes.dropEndWhile (· == 0x30) digits
    | some p => digits ++ List.replicate (p - places) 0x30
  utf8 "0x" ++ Bytes.ofNat (kept / unit)
    ++ (if fraction.isEmpty then [] else 0x2E :: fraction) ++ binaryExponent 2 e

/--
The alternate form of a number keeps its point, and zeros behind it until
there are `places` digits, counted from the first that is no zero.
-/
def alternate (places : Nat) (isTail : UInt8 → Bool) (number : Bytes) : Bytes :=
  let body := number.takeWhile fun b => !isTail b
  let tail := number.dropWhile fun b => !isTail b
  let counted := ((body.filter (· != 0x2E)).dropWhile (· == 0x30)).length
  if body.contains 0x2E then body ++ List.replicate (places - counted) 0x30 ++ tail
  else
    let counted := if body == utf8 "0" then 1 else counted
    body ++ 0x2E :: List.replicate (places - counted) 0x30 ++ tail

def finite? (o : Options) (verb : Char) (mantissa : Nat) (exponent : Int) : Option Bytes :=
  let isDecimalTail (b : UInt8) : Bool := Bytes.lowerAscii b == 0x65
  let isBinaryTail (b : UInt8) : Bool := Bytes.lowerAscii b == 0x70
  let sharply (places : Nat) (isTail : UInt8 → Bool) (number : Bytes) : Option Bytes :=
    some (if o.sharp then alternate places isTail number else number)
  let places := o.precision.getD 6
  match verb with
  | 'v' | 'g' => sharply places isDecimalTail (general o.precision mantissa exponent)
  | 'G' => sharply places isDecimalTail (capitals (general o.precision mantissa exponent))
  | 'f' | 'F' => sharply 0 isDecimalTail (Decimal.fixedDigits places mantissa exponent)
  | 'e' => sharply 0 isDecimalTail (scientific places mantissa exponent)
  | 'E' => sharply 0 isDecimalTail (capitals (scientific places mantissa exponent))
  | 'b' => some (stored mantissa exponent)
  | 'x' => sharply places isBinaryTail (hexadecimal o.precision mantissa exponent)
  | 'X' => sharply 0 isBinaryTail (capitals (hexadecimal o.precision mantissa exponent))
  | _ => none

/--
A double under a verb.  Infinities always show a sign, and neither they nor what is no
number are filled with zeros.
-/
def float? (o : Options) (verb : Char) (x : Float) : Option Bytes :=
  match Decimal.shape x with
  | .nan =>
    (finite? o verb 0 0).map fun _ => o.padBlank (o.sign false ++ utf8 "NaN")
  | .infinite negative =>
    let sign := if !negative && !o.blank then utf8 "+" else o.sign negative
    (finite? o verb 0 0).map fun _ => o.padBlank (sign ++ utf8 "Inf")
  | .finite negative mantissa exponent =>
    (finite? o verb mantissa exponent).map fun digits =>
      let sign := o.sign negative
      if o.fillsZeros then
        sign ++ Bytes.padZeros (o.width.getD 0 - sign.length) digits
      else o.pad (sign ++ digits)

end Scriptlet.Template
