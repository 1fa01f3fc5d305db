/-!
# Byte strings

Source texts, lexemes, messages and everything that is written are sequences
of bytes, since a source may hold bytes that form no character.  This module
holds the few operations on them that the rest of the library shares.
-/

namespace Scriptlet

abbrev Bytes := List UInt8

def utf8 (s : String) : Bytes := s.toUTF8.data.toList

def newline : UInt8 := 0x0A

def space : UInt8 := 0x20

def quote : UInt8 := 0x22

namespace Bytes

/-! ## Character classes -/

def isDigit (b : UInt8) : Bool := 0x30 ≤ b && b ≤ 0x39

def isLower (b : UInt8) : Bool := 0x61 ≤ b && b ≤ 0x7A

def isUpper (b : UInt8) : Bool := 0x41 ≤ b && b ≤ 0x5A

def isLetter (b : UInt8) : Bool := isLower b || isUpper b

def lowerAscii (b : UInt8) : UInt8 := if isUpper b then b + 0x20 else b

def digitValue (b : UInt8) : Nat := b.toNat - 0x30

def hexValue? (b : UInt8) : Option Nat :=
  if isDigit b then some (b.toNat - 0x30)
  else if 0x61 ≤ b && b ≤ 0x66 then some (b.toNat - 0x57)
  else if 0x41 ≤ b && b ≤ 0x46 then some (b.toNat - 0x37)
  else none

/-! ## Joining and splitting -/

def join (separator : Bytes) (parts : List Bytes) : Bytes :=
  separator.intercalate parts

def pieces (s : Bytes) : List Bytes := s.splitOn newline

def countNewlines (s : Bytes) : Nat := s.count newline

def dropEndWhile (p : UInt8 → Bool) (s : Bytes) : Bytes :=
  (s.reverse.dropWhile p).reverse

def startsWith (s start : Bytes) : Bool := start.isPrefixOf s

def endsWith (s ending : Bytes) : Bool := ending.isSuffixOf s

def cut? (b : UInt8) (s : Bytes) : Option (Bytes × Bytes) :=
  match s.dropWhile (· != b) with
  | [] => none
  | _ :: rest => some (s.takeWhile (· != b), rest)

def before (a b : Bytes) : Bool := decide (a < b)

def spaces (n : Nat) : Bytes := List.replicate n space

/-! ## Integers -/

def ofNat (n : Nat) : Bytes :=
  (Nat.toDigits 10 n).map fun c => c.toUInt8

def ofInt (i : Int) : Bytes :=
  if i < 0 then 0x2D :: ofNat i.natAbs else ofNat i.natAbs

def padZeros (width : Nat) (s : Bytes) : Bytes :=
  List.replicate (width - s.length) 0x30 ++ s

def hexDigit (n : Nat) : UInt8 :=
  if n < 10 then UInt8.ofNat (0x30 + n) else UInt8.ofNat (0x57 + n)

def hex : (width : Nat) → (n : Nat) → Bytes
  | 0, _ => []
  | width + 1, n => hex width (n / 16) ++ [hexDigit (n % 16)]

def digitsValue (s : Bytes) : Nat :=
  s.foldl (fun n b => 10 * n + digitValue b) 0

end Bytes

end Scriptlet
