import Scriptlet.Decimal.Reader
import Scriptlet.Text.Utf8

/-!
# Texts and keys of documents with tables

A text stands between quotes, in which backslashes start escapes, or between
apostrophes, in which nothing is escaped.  Three of a kind enclose a text of
several lines.  A key is a word or a text on one line, and several keys may be
joined by dots.
-/

namespace Scriptlet.Toml

/-! ## Blanks and line breaks -/

def isBlank (b : UInt8) : Bool := b == 0x20 || b == 0x09

def skipBlanks (s : Bytes) : Bytes := s.dropWhile isBlank

def lineBreak? : Bytes → Option Bytes
  | 0x0A :: rest => some rest
  | 0x0D :: 0x0A :: rest => some rest
  | _ => none

def isBreakByte (b : UInt8) : Bool := b == 0x0A || b == 0x0D

def backslash : UInt8 := 0x5C

def apostrophe : UInt8 := 0x27

/-! ## Escapes -/

def hexNumber? (count : Nat) (s : Bytes) : Option (Nat × Bytes) :=
  let digits := s.take count
  if digits.length == count && digits.all fun b => (Bytes.hexValue? b).isSome then
    some (Decimal.hexDigitsValue digits, s.drop count)
  else none

def isScalarValue (code : Nat) : Bool :=
  code < 0xD800 || (0xE000 ≤ code && code < 0x110000)

def escape? : Bytes → Option (Bytes × Bytes)
  | [] => none
  | b :: rest =>
    let numbered (count : Nat) := (hexNumber? count rest).bind fun (code, rest) =>
      if isScalarValue code then some (Rune.encode code, rest) else none
    match Char.ofUInt8 b with
    | 'b' => some ([0x08], rest)
    | 't' => some ([0x09], rest)
    | 'n' => some ([0x0A], rest)
    | 'f' => some ([0x0C], rest)
    | 'r' => some ([0x0D], rest)
    | '"' => some ([0x22], rest)
    | '\\' => some ([0x5C], rest)
    | 'u' => numbered 4
    | 'U' => numbered 8
    | _ => none

def joinedLine? (s : Bytes) : Option Bytes :=
  if (lineBreak? (skipBlanks s)).isSome then
    some (s.dropWhile fun b => isBlank b || isBreakByte b)
  else none

def unescapeFrom (long : Bool) : (fuel : Nat) → (done : Bytes) → Bytes → Option Bytes
  | 0, _, _ => none
  | _ + 1, done, [] => some done.reverse
  | fuel + 1, done, b :: rest =>
    if b == backslash then
      match if long then joinedLine? rest else none with
      | some rest => unescapeFrom long fuel done rest
      | none =>
        match escape? rest with
        | some (encoded, rest) => unescapeFrom long fuel (encoded.reverse ++ done) rest
        | none => none
    else unescapeFrom long fuel (b :: done) rest

def unescape? (long : Bool) (s : Bytes) : Option Bytes := unescapeFrom long (s.length + 1) [] s

/-! ## Texts on one line -/

def rawBasic : (done : Bytes) → Bytes → Option (Bytes × Bytes)
  | _, [] => none
  | done, [b] => if b == quote then some (done.reverse, []) else none
  | done, b :: c :: rest =>
    if b == quote then some (done.reverse, c :: rest)
    else if isBreakByte b then none
    else if b == backslash then
      if isBreakByte c then none else rawBasic (c :: b :: done) rest
    else rawBasic (b :: done) (c :: rest)

def basicText? (s : Bytes) : Option (Bytes × Bytes) :=
  (rawBasic [] s).bind fun (raw, rest) => (unescape? false raw).map fun text => (text, rest)

def literalText? (s : Bytes) : Option (Bytes × Bytes) :=
  match Bytes.cut? apostrophe s with
  | some (text, rest) => if text.any isBreakByte then none else some (text, rest)
  | none => none

/-! ## Texts of several lines -/

/--
Whether a text, given from its end, ends in five marks.  A backslash right
before them excuses this where there are escapes.
-/
def endsInFive (escapes : Bool) (mark : UInt8) (reversed : Bytes) : Bool :=
  (List.replicate 5 mark).isPrefixOf reversed
    && !(escapes && (reversed.drop 5).head? == some backslash)

/--
The raw text up to its three closing marks, and the rest.  Up to two more marks
in front of these belong to the text.
-/
def rawLong (escapes : Bool) (mark : UInt8) : (done : Bytes) → Bytes → Option (Bytes × Bytes)
  | done, a :: b :: c :: rest =>
    if a == mark && b == mark && c == mark then
      if rest.head? == some mark then
        if endsInFive escapes mark (mark :: mark :: mark :: done) then none
        else rawLong escapes mark (a :: done) (b :: c :: rest)
      else some (done.reverse, rest)
    else if escapes && a == backslash then rawLong escapes mark (b :: a :: done) (c :: rest)
    else rawLong escapes mark (a :: done) (b :: c :: rest)
  | _, _ => none

def dropFirstBreak (s : Bytes) : Bytes := (lineBreak? s).getD s

def longText? (escapes : Bool) (mark : UInt8) (s : Bytes) : Option (Bytes × Bytes) :=
  (rawLong escapes mark [] s).bind fun (raw, rest) =>
    let raw := dropFirstBreak raw
    if escapes then (unescape? true raw).map fun text => (text, rest) else some (raw, rest)

def text? : Bytes → Option (Bytes × Bytes)
  | 0x22 :: 0x22 :: 0x22 :: rest => longText? true quote rest
  | 0x27 :: 0x27 :: 0x27 :: rest => longText? false apostrophe rest
  | 0x22 :: rest => basicText? rest
  | 0x27 :: rest => literalText? rest
  | _ => none

/-! ## Keys -/

def isBareKeyByte (b : UInt8) : Bool :=
  Bytes.isLetter b || Bytes.isDigit b || b == 0x2D || b == 0x5F

def simpleKey? (s : Bytes) : Option (Bytes × Bytes) :=
  match s with
  | 0x22 :: rest => basicText? rest
  | 0x27 :: rest => literalText? rest
  | s =>
    match s.takeWhile isBareKeyByte with
    | [] => none
    | key => some (key, s.dropWhile isBareKeyByte)

abbrev Path := List Bytes

def key? : (fuel : Nat) → Bytes → Option (Path × Bytes)
  | 0, _ => none
  | fuel + 1, s =>
    match simpleKey? (skipBlanks s) with
    | none => none
    | some (first, rest) =>
      match skipBlanks rest with
      | 0x2E :: more => (key? fuel more).map fun (others, rest) => (first :: others, rest)
      | rest => some ([first], rest)

end Scriptlet.Toml
