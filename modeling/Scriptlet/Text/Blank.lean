import Scriptlet.Text.Bytes

/-!
# White space

The characters with the White_Space property, as encodings, and the removal
of white space at the two ends of a text.
-/

namespace Scriptlet.Blank

def blanks : List Bytes :=
  [[0x20], [0x09], [0x0A], [0x0B], [0x0C], [0x0D], [0xC2, 0x85], [0xC2, 0xA0],
    [0xE1, 0x9A, 0x80], [0xE2, 0x80, 0x80], [0xE2, 0x80, 0x81], [0xE2, 0x80, 0x82],
    [0xE2, 0x80, 0x83], [0xE2, 0x80, 0x84], [0xE2, 0x80, 0x85], [0xE2, 0x80, 0x86],
    [0xE2, 0x80, 0x87], [0xE2, 0x80, 0x88], [0xE2, 0x80, 0x89], [0xE2, 0x80, 0x8A],
    [0xE2, 0x80, 0xA8], [0xE2, 0x80, 0xA9], [0xE2, 0x80, 0xAF], [0xE2, 0x81, 0x9F],
    [0xE3, 0x80, 0x80]]

def dropOne? (forms : List Bytes) (s : Bytes) : Option Bytes :=
  forms.findSome? fun form => form.isPrefixOf? s

def dropAll (forms : List Bytes) : (fuel : Nat) → Bytes → Bytes
  | 0, s => s
  | fuel + 1, s =>
    match dropOne? forms s with
    | some rest => dropAll forms fuel rest
    | none => s

def trimStart (s : Bytes) : Bytes := dropAll blanks s.length s

def trimEnd (s : Bytes) : Bytes :=
  (dropAll (blanks.map List.reverse) s.length s.reverse).reverse

def trim (s : Bytes) : Bytes := trimEnd (trimStart s)

end Scriptlet.Blank
