import Scriptlet.Yaml.Cursor

/-!
# Tokens

The tokens of a document, and the reading of those that carry names: anchors,
aliases, tags and directives.
-/

namespace Scriptlet.Yaml

inductive Token where
  | streamStart
  | streamEnd
  | versionDirective (major minor : Nat)
  | tagDirective (handle start : Bytes)
  | documentStart
  | documentEnd
  | blockSequenceStart
  | blockMappingStart
  | blockEnd
  | flowSequenceStart
  | flowSequenceEnd
  | flowMappingStart
  | flowMappingEnd
  | blockEntry
  | flowEntry
  | key
  | value
  | alias (name : Bytes)
  | anchor (name : Bytes)
  | tag (handle suffix : Bytes)
  | scalar (text : Bytes) (isPlain : Bool)
  deriving DecidableEq, Repr, Inhabited

/-! ## Anchors and aliases -/

def endsName (s : List Char) : Bool :=
  endsWord s || s.head?.any fun ch => ['?', ':', ',', ']', '\x7d', '%', '@', '\x60'].contains ch

def anchorName? (c : Cursor) : Option (Bytes × Cursor) :=
  let (name, c) := (c.advance 1).span isNameChar
  if name.isEmpty || !endsName c.rest then none else some (encode name, c)

/-! ## Tags -/

def isUriChar (c : Char) : Bool :=
  isNameChar c || [';', '/', '?', ':', '@', '&', '=', '+', '$', ',', '.', '!', '~', '*', '\'',
    '(', ')', '[', ']', '%'].contains c

def uriByte? : List Char → Option UInt8
  | '%' :: a :: b :: _ =>
    match Bytes.hexValue? a.toUInt8, Bytes.hexValue? b.toUInt8 with
    | some high, some low =>
      if a.toNat < 0x80 && b.toNat < 0x80 then some (UInt8.ofNat (16 * high + low)) else none
    | _, _ => none
  | _ => none

def furtherBytes? (b : UInt8) : Option Nat :=
  if b < 0x80 then some 0
  else if 0xC0 ≤ b && b < 0xE0 then some 1
  else if 0xE0 ≤ b && b < 0xF0 then some 2
  else if 0xF0 ≤ b && b < 0xF8 then some 3
  else none

def uriContinuation? : (n : Nat) → (done : Bytes) → Cursor → Option (Bytes × Cursor)
  | 0, done, c => some (done, c)
  | n + 1, done, c =>
    match uriByte? c.rest with
    | some b =>
      if Utf8.isContinuation b then uriContinuation? n (b :: done) (c.advance 3) else none
    | none => none

def uriFrom : (fuel : Nat) → (done : Bytes) → Cursor → Option (Bytes × Cursor)
  | 0, _, _ => none
  | fuel + 1, done, c =>
    match c.rest with
    | [] => some (done, c)
    | ch :: _ =>
      if ch == '%' then
        match uriByte? c.rest with
        | none => none
        | some b =>
          match furtherBytes? b with
          | none => none
          | some n =>
            match uriContinuation? n (b :: done) (c.advance 3) with
            | none => none
            | some (done, c) => uriFrom fuel done c
      else if isUriChar ch then uriFrom fuel (UInt8.ofNat ch.toNat :: done) (c.advance 1)
      else some (done, c)

def uri? (start : Bytes) (c : Cursor) : Option (Bytes × Cursor) :=
  (uriFrom (c.left + 1) start.reverse c).map fun (done, c) => (done.reverse, c)

def tagHandle? (c : Cursor) : Option (Bytes × Cursor) :=
  if c.sees '!' then
    let (name, c) := (c.advance 1).span isNameChar
    if c.sees '!' then some (utf8 "!" ++ encode name ++ utf8 "!", c.advance 1)
    else some (utf8 "!" ++ encode name, c)
  else none

def shortTag? (c : Cursor) : Option (Bytes × Bytes × Cursor) :=
  match tagHandle? c with
  | none => none
  | some (handle, c) =>
    if 1 < handle.length && handle.getLast? == some 0x21 then
      match uri? [] c with
      | some (suffix, c) => if suffix.isEmpty then none else some (handle, suffix, c)
      | none => none
    else
      (uri? (handle.drop 1) c).map fun (suffix, c) =>
        if suffix.isEmpty then ([], handle, c) else (utf8 "!", suffix, c)

def longTag? (c : Cursor) : Option (Bytes × Bytes × Cursor) :=
  match uri? [] (c.advance 2) with
  | some (suffix, c) =>
    if suffix.isEmpty || !c.sees '>' then none else some ([], suffix, c.advance 1)
  | none => none

def tag? (c : Cursor) : Option (Token × Cursor) :=
  let found := if (c.rest.drop 1).head? == some '<' then longTag? c else shortTag? c
  match found with
  | some (handle, suffix, c) => if c.atWordEnd then some (.tag handle suffix, c) else none
  | none => none

/-! ## Directives -/

def versionNumber? (c : Cursor) : Option (Nat × Cursor) :=
  let (digits, c) := c.span Char.isDigit
  if digits.isEmpty || 2 < digits.length then none
  else some (Bytes.digitsValue (encode digits), c)

def versionDirective? (c : Cursor) : Option (Token × Cursor) :=
  match versionNumber? c.skipBlanks with
  | none => none
  | some (major, c) =>
    if !c.sees '.' then none
    else (versionNumber? (c.advance 1)).map fun (minor, c) => (.versionDirective major minor, c)

def tagDirective? (c : Cursor) : Option (Token × Cursor) :=
  match tagHandle? c.skipBlanks with
  | none => none
  | some (handle, c) =>
    if handle.getLast? != some 0x21 || !c.atBlank then none
    else
      match uri? [] c.skipBlanks with
      | none => none
      | some (start, c) =>
        if start.isEmpty || !c.atWordEnd then none else some (.tagDirective handle start, c)

def directive? (c : Cursor) : Option (Token × Cursor) :=
  let (name, c) := (c.advance 1).span isNameChar
  let found :=
    if !c.atWordEnd then none
    else if name == "YAML".toList then versionDirective? c
    else if name == "TAG".toList then tagDirective? c
    else none
  match found with
  | none => none
  | some (token, c) =>
    let c := c.skipBlanks
    let c := if c.sees '#' then c.skipToLineEnd else c
    if c.atLineEnd then some (token, c.skipBreak) else none

end Scriptlet.Yaml
