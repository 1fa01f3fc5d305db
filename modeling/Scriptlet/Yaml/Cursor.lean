import Scriptlet.Yaml.Characters

/-!
# Places in a document

A cursor is the rest of a document together with the line and the column
where it starts.
-/

namespace Scriptlet.Yaml

structure Cursor where
  rest : List Char
  left : Nat
  index : Nat := 0
  line : Nat := 0
  column : Nat := 0
  freshLine : Bool := false
  deriving Inhabited

namespace Cursor

def start (s : List Char) : Cursor := { rest := s, left := s.length }

def atEnd (c : Cursor) : Bool := c.rest.isEmpty

def sees (c : Cursor) (ch : Char) : Bool := c.rest.head? == some ch

def atBlank (c : Cursor) : Bool := c.rest.head?.any isBlank

def atBreak (c : Cursor) : Bool := c.rest.head?.any isBreak

def atLineEnd (c : Cursor) : Bool := endsLine c.rest

def atWordEnd (c : Cursor) : Bool := endsWord c.rest

def advance (c : Cursor) (n : Nat) : Cursor :=
  { c with
    rest := c.rest.drop n
    left := c.left - n
    index := c.index + n
    column := c.column + n
    freshLine := c.freshLine && (c.rest.take n).all isBlank }

def span (c : Cursor) (p : Char → Bool) : List Char × Cursor :=
  let passed := c.rest.takeWhile p
  (passed, c.advance passed.length)

def skipWhile (c : Cursor) (p : Char → Bool) : Cursor := (c.span p).2

def skipBlanks (c : Cursor) : Cursor := c.skipWhile isBlank

def skipToLineEnd (c : Cursor) : Cursor := c.skipWhile fun ch => !isBreak ch

/--
Passes a line break and says what it stands for: a newline, unless it is one
of the two separators that stand for themselves.
-/
def readBreak (c : Cursor) : List Char × Cursor :=
  let passing (n : Nat) (rest : List Char) : Cursor :=
    { rest := rest, left := c.left - n, index := c.index + n, line := c.line + 1,
      freshLine := true }
  match c.rest with
  | '\r' :: '\n' :: rest => (['\n'], passing 2 rest)
  | ch :: rest =>
    if ch == '\u2028' || ch == '\u2029' then ([ch], passing 1 rest)
    else if isBreak ch then (['\n'], passing 1 rest)
    else ([], c)
  | [] => ([], c)

def skipBreak (c : Cursor) : Cursor := c.readBreak.2

def atDocumentMark (c : Cursor) : Bool :=
  c.column == 0 &&
    match c.rest with
    | a :: b :: d :: rest => (a == '-' || a == '.') && a == b && b == d && endsWord rest
    | _ => false

/-! ## Comments -/

def commentReach : Nat := 512

def skipLineComment (c : Cursor) : Cursor :=
  let blanks := (c.rest.takeWhile isBlank).length
  if !c.freshLine && blanks < commentReach && (c.rest.drop blanks).head? == some '#' then
    c.skipToLineEnd
  else c

def skipGap : (fuel : Nat) → Cursor → Cursor
  | 0, c => c
  | fuel + 1, c =>
    if c.atBreak then skipGap fuel c.skipBreak
    else if c.atBlank then skipGap fuel (c.advance 1)
    else c

/--
Passes a comment, and all further comments that only blanks and empty lines
separate from it.  The end of the last line stays.
-/
def skipComments : (fuel : Nat) → Cursor → Cursor
  | 0, c => c
  | fuel + 1, c =>
    let c := c.skipToLineEnd
    let ahead := (c.rest.drop 1).take (commentReach - 1)
    if (ahead.dropWhile fun ch => isBlank ch || isBreak ch).head? == some '#' then
      skipComments fuel (c.skipGap c.left)
    else c

end Cursor

end Scriptlet.Yaml
