import Scriptlet.Text.Printable

/-!
# Quoted text

A text between double quotes in which every byte can be told from the
picture: quotes, backslashes, controls, stray bytes and characters that are
not printable are written as escapes.
-/

namespace Scriptlet.Quoted

def letterEscape? (code : Nat) : Option Char :=
  match Char.ofNat code with
  | '"' => some '"'
  | '\\' => some '\\'
  | '\x07' => some 'a'
  | '\x08' => some 'b'
  | '\x0c' => some 'f'
  | '\n' => some 'n'
  | '\r' => some 'r'
  | '\t' => some 't'
  | '\x0b' => some 'v'
  | _ => none

def runeUnless (verbatim : Nat → Bool) : Rune → Bytes
  | .stray byte => utf8 "\\x" ++ Bytes.hex 2 byte.toNat
  | .char code encoded =>
    match letterEscape? code with
    | some letter => [0x5C, letter.toUInt8]
    | none =>
      if verbatim code then encoded
      else if code < 0x80 then utf8 "\\x" ++ Bytes.hex 2 code
      else if code < 0x10000 then utf8 "\\u" ++ Bytes.hex 4 code
      else utf8 "\\U" ++ Bytes.hex 8 code

def rune (r : Rune) : Bytes := runeUnless Printable.isPrintable r

def quoted (s : Bytes) : Bytes :=
  quote :: (Utf8.runes s).flatMap rune ++ [quote]

def isPlainAscii (code : Nat) : Bool := code < 0x80 && Printable.isPrintable code

def quotedAscii (s : Bytes) : Bytes :=
  quote :: (Utf8.runes s).flatMap (runeUnless isPlainAscii) ++ [quote]

def backquote : UInt8 := 0x60

def fitsBackquotes (s : Bytes) : Bool :=
  (Utf8.runes s).all fun r =>
    match r with
    | .stray _ => false
    | .char code _ =>
      code == 0x09 || (0x20 ≤ code && code != 0x7F && code != 0x60 && code != 0xFEFF)

def apostrophe : UInt8 := 0x27

def characterUnless (verbatim : Nat → Bool) (code : Nat) : Bytes :=
  let inner : Bytes :=
    if code == apostrophe.toNat then [0x5C, apostrophe]
    else if code == quote.toNat then [quote]
    else runeUnless verbatim (.char code (Rune.encode code))
  apostrophe :: inner ++ [apostrophe]

def character (code : Nat) : Bytes := characterUnless Printable.isPrintable code

def characterAscii (code : Nat) : Bytes := characterUnless isPlainAscii code

end Scriptlet.Quoted
