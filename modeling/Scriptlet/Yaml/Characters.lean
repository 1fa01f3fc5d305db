import Scriptlet.Text.Utf8

/-!
# Characters of documents with indentation

A document is encoded in UTF-8, or in UTF-16 where a mark at its start says
so.  Controls other than tabs and line breaks are not part of any document.
-/

namespace Scriptlet.Yaml

/-! ## Classes -/

def isBlank (c : Char) : Bool := c == ' ' || c == '\t'

def isBreak (c : Char) : Bool :=
  c == '\n' || c == '\r' || c == '\u0085' || c == '\u2028' || c == '\u2029'

def isNameChar (c : Char) : Bool := c.isAlphanum || c == '_' || c == '-'

def endsLine : List Char → Bool
  | [] => true
  | c :: _ => isBreak c

def endsWord : List Char → Bool
  | [] => true
  | c :: _ => isBlank c || isBreak c

def encode (s : List Char) : Bytes := s.flatMap fun c => Rune.encode c.toNat

/-! ## Decoding -/

def isAdmitted (code : Nat) : Bool :=
  code == 0x09 || code == 0x0A || code == 0x0D || code == 0x85
    || (0x20 ≤ code && code ≤ 0x7E) || (0xA0 ≤ code && code ≤ 0xD7FF)
    || (0xE000 ≤ code && code ≤ 0xFFFD && code != 0xFEFF)
    || (0x10000 ≤ code && code ≤ 0x10FFFF)

def units? (bigEndian : Bool) (done : List Nat) : Bytes → Option (List Nat)
  | [] => some done.reverse
  | [_] => none
  | a :: b :: rest =>
    let unit := if bigEndian then 256 * a.toNat + b.toNat else 256 * b.toNat + a.toNat
    units? bigEndian (unit :: done) rest

def isHighSurrogate (unit : Nat) : Bool := 0xD800 ≤ unit && unit < 0xDC00

def isLowSurrogate (unit : Nat) : Bool := 0xDC00 ≤ unit && unit < 0xE000

def codesOfUnits? (done : List Nat) : List Nat → Option (List Nat)
  | [] => some done.reverse
  | [unit] =>
    if isHighSurrogate unit || isLowSurrogate unit then none else some (unit :: done).reverse
  | unit :: next :: rest =>
    if isLowSurrogate unit then none
    else if isHighSurrogate unit then
      if isLowSurrogate next then
        codesOfUnits? ((0x10000 + 0x400 * (unit - 0xD800) + (next - 0xDC00)) :: done) rest
      else none
    else codesOfUnits? (unit :: done) (next :: rest)

def codesOfUtf8? (s : Bytes) : Option (List Nat) :=
  if Utf8.isValid s then some ((Utf8.runes s).map Rune.code) else none

def codes? (s : Bytes) : Option (List Nat) :=
  match s with
  | 0xFF :: 0xFE :: rest => (units? false [] rest).bind (codesOfUnits? [])
  | 0xFE :: 0xFF :: rest => (units? true [] rest).bind (codesOfUnits? [])
  | 0xEF :: 0xBB :: 0xBF :: rest => codesOfUtf8? rest
  | s => codesOfUtf8? s

def characters? (s : Bytes) : Option (List Char) :=
  match codes? s with
  | none => none
  | some codes => if codes.all isAdmitted then some (codes.map Char.ofNat) else none

end Scriptlet.Yaml
