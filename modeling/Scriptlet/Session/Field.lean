import Scriptlet.Text.Blank
import Scriptlet.Text.Utf8

/-!
# Text fields

A line that is being edited: the characters before the cursor, nearest first,
and those behind it.  A field holds printable characters only, and not more
than a fixed number of them.
-/

namespace Scriptlet

structure Field where
  before : List Rune := []
  after : List Rune := []
  deriving DecidableEq, Repr, Inhabited

namespace Field

def capacity : Nat := 4000

def size (f : Field) : Nat := f.before.length + f.after.length

def value (f : Field) : Bytes := (f.before.reverse ++ f.after).flatMap Rune.bytes

def isControl (code : Nat) : Bool := code < 0x20 || (0x7F ≤ code && code < 0xA0)

/--
The character that is entered for a typed one: a space for a tab or the end of
a line, nothing for another control, a stray byte or the replacement
character.
-/
def admitted? : Rune → Option Rune
  | .stray _ => none
  | .char code encoded =>
    if code == 0x09 || code == 0x0A || code == 0x0D then some (.char 0x20 [space])
    else if isControl code || code == 0xFFFD then none
    else some (.char code encoded)

def insert (f : Field) (typed : Bytes) : Field :=
  let entered := ((Utf8.runes typed).filterMap admitted?).take (capacity - f.size)
  { f with before := entered.reverse ++ f.before }

/-! ## Editing -/

def left (f : Field) : Field :=
  match f.before with
  | [] => f
  | r :: rest => ⟨rest, r :: f.after⟩

def right (f : Field) : Field :=
  match f.after with
  | [] => f
  | r :: rest => ⟨r :: f.before, rest⟩

def toStart (f : Field) : Field := ⟨[], f.before.reverse ++ f.after⟩

def toEnd (f : Field) : Field := ⟨f.after.reverse ++ f.before, []⟩

def eraseBefore (f : Field) : Field := { f with before := f.before.tail }

def eraseAfter (f : Field) : Field := { f with after := f.after.tail }

def clearBefore (f : Field) : Field := { f with before := [] }

def clearAfter (f : Field) : Field := { f with after := [] }

/-! ### Words

A word is a run of characters that are not white space.
-/

def isBlank (r : Rune) : Bool := Blank.blanks.contains r.bytes

def isSolid (r : Rune) : Bool := !isBlank r

def splitWord (runes : List Rune) : List Rune × List Rune :=
  let rest := (runes.dropWhile isBlank).dropWhile isSolid
  (runes.take (runes.length - rest.length), rest)

def wordLeft (f : Field) : Field :=
  let (passed, rest) := splitWord f.before
  ⟨rest, passed.reverse ++ f.after⟩

def wordRight (f : Field) : Field :=
  let (passed, rest) := splitWord f.after
  ⟨passed.reverse ++ f.before, rest⟩

/-- Removes the word before the cursor; a first character alone is not kept. -/
def eraseWordBefore (f : Field) : Field :=
  match (splitWord f.before).2 with
  | [] | [_] => { f with before := [] }
  | rest => { f with before := rest }

def eraseWordAfter (f : Field) : Field := { f with after := (splitWord f.after.tail).2 }

/-! ### Keys -/

def commands : List (String × (Field → Field)) :=
  [("alt+backspace", eraseWordBefore), ("ctrl+w", eraseWordBefore),
    ("backspace", eraseBefore), ("ctrl+h", eraseBefore),
    ("alt+left", wordLeft), ("ctrl+left", wordLeft), ("alt+b", wordLeft),
    ("left", left), ("ctrl+b", left),
    ("alt+right", wordRight), ("ctrl+right", wordRight), ("alt+f", wordRight),
    ("right", right), ("ctrl+f", right), ("home", toStart), ("ctrl+a", toStart),
    ("delete", eraseAfter), ("ctrl+d", eraseAfter), ("end", toEnd), ("ctrl+e", toEnd),
    ("ctrl+k", clearAfter), ("ctrl+u", clearBefore), ("ctrl+v", id),
    ("alt+delete", eraseWordAfter), ("alt+d", eraseWordAfter),
    ("down", id), ("ctrl+n", id), ("up", id), ("ctrl+p", id)]

def press (f : Field) (name typed : Bytes) : Field :=
  match commands.find? fun entry => utf8 entry.1 == name with
  | some (_, command) => command f
  | none => f.insert typed

/--
Whether a key fails: a word behind the cursor cannot be removed where there is
one character only, since the word would start behind the end of the line.
-/
def fails (f : Field) (name : Bytes) : Bool :=
  (name == utf8 "alt+delete" || name == utf8 "alt+d") && f.after.length == 1

def failure (f : Field) : Bytes :=
  let n := Bytes.ofNat f.size
  utf8 "runtime error: index out of range [" ++ n ++ utf8 "] with length " ++ n

end Field

end Scriptlet
