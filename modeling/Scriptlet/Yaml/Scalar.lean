import Scriptlet.Toml.Text
import Scriptlet.Yaml.Cursor

/-!
# Scalars

A scalar is plain, quoted, or a block of lines behind a mark.  Plain and quoted
scalars may go on over several lines; a single line break between two words
stands for a space, and of several the first is dropped.
-/

namespace Scriptlet.Yaml

/-! ## Gaps between words -/

structure Gap where
  blanks : List Char := []
  broken : Bool := false
  first : List Char := []
  further : List Char := []
  deriving Inhabited

namespace Gap

def folded (g : Gap) : List Char :=
  if !g.broken then g.blanks
  else if g.first == ['\n'] then if g.further.isEmpty then [' '] else g.further
  else g.further ++ g.first

/--
Passes blanks and line breaks.  A tab that stands left of the column `least`
on a further line is refused.
-/
def read? (least : Nat) : (fuel : Nat) → Gap → Cursor → Option (Gap × Cursor)
  | 0, _, _ => none
  | fuel + 1, g, c =>
    match c.rest with
    | [] => some (g, c)
    | ch :: _ =>
      if isBreak ch then
        let (text, c) := c.readBreak
        if g.broken then read? least fuel { g with further := text.reverse ++ g.further } c
        else read? least fuel { broken := true, first := text } c
      else if isBlank ch then
        if g.broken then
          if ch == '\t' && c.column < least then none
          else read? least fuel g (c.advance 1)
        else read? least fuel { g with blanks := ch :: g.blanks } (c.advance 1)
      else some (g, c)

end Gap

/-! ## Plain scalars -/

def flowMarks : List Char := [',', '?', '[', ']', '\x7b', '\x7d']

def wordLength (inFlow : Bool) : (n : Nat) → List Char → Nat
  | n, [] => n
  | n, ch :: rest =>
    if isBlank ch || isBreak ch then n
    else if ch == ':' && endsWord rest then n
    else if inFlow && flowMarks.contains ch then n
    else wordLength inFlow (n + 1) rest

structure Reading where
  text : List Char
  cursor : Cursor
  brokeLine : Bool := false
  deriving Inhabited

def plainFrom (inFlow : Bool) (least : Nat) :
    (fuel : Nat) → (done : List Char) → (gap : Gap) → Cursor → Option Reading
  | 0, _, _, _ => none
  | fuel + 1, done, gap, c =>
    if c.atDocumentMark || c.sees '#' then some ⟨done.reverse, c, gap.broken⟩
    else
      let n := wordLength inFlow 0 c.rest
      let word := c.rest.take n
      let after := c.advance n
      let (done, gap) :=
        if n == 0 then (done, gap) else (word.reverse ++ (gap.folded ++ done), {})
      if after.atBlank || after.atBreak then
        match Gap.read? least (after.left + 1) gap after with
        | none => none
        | some (gap, c) =>
          if !inFlow && c.column < least then some ⟨done.reverse, c, gap.broken⟩
          else plainFrom inFlow least fuel done gap c
      else some ⟨done.reverse, after, gap.broken⟩

def plain? (inFlow : Bool) (indent : Int) (c : Cursor) : Option Reading :=
  plainFrom inFlow (indent + 1).toNat (c.left + 1) [] {} c

/-! ## Quoted scalars -/

def letterEscape? : Char → Option Char
  | '0' => some '\x00'
  | 'a' => some '\x07'
  | 'b' => some '\x08'
  | 't' | '\t' => some '\t'
  | 'n' => some '\n'
  | 'v' => some '\x0b'
  | 'f' => some '\x0c'
  | 'r' => some '\r'
  | 'e' => some '\x1b'
  | ' ' => some ' '
  | '"' => some '"'
  | '\'' => some '\''
  | '\\' => some '\\'
  | 'N' => some '\u0085'
  | '_' => some '\u00a0'
  | 'L' => some '\u2028'
  | 'P' => some '\u2029'
  | _ => none

def numberEscape? (count : Nat) (s : List Char) : Option Char :=
  match Toml.hexNumber? count (encode (s.take count)) with
  | some (code, []) => if Toml.isScalarValue code then some (Char.ofNat code) else none
  | _ => none

def escape? : List Char → Option (Char × Nat)
  | 'x' :: rest => (numberEscape? 2 rest).map fun ch => (ch, 3)
  | 'u' :: rest => (numberEscape? 4 rest).map fun ch => (ch, 5)
  | 'U' :: rest => (numberEscape? 8 rest).map fun ch => (ch, 9)
  | ch :: _ => (letterEscape? ch).map fun meant => (meant, 1)
  | [] => none

/--
Reads up to a blank, a line break or the closing quote, where a backslash
before a line break counts as part of the break.
-/
def quotedWord? (single : Bool) :
    (fuel : Nat) → (done : List Char) → Cursor → Option (List Char × Bool × Cursor)
  | 0, _, _ => none
  | fuel + 1, done, c =>
    match c.rest with
    | [] => some (done, false, c)
    | ch :: rest =>
      if isBlank ch || isBreak ch then some (done, false, c)
      else if single then
        if ch == '\'' then
          if rest.head? == some '\'' then quotedWord? single fuel ('\'' :: done) (c.advance 2)
          else some (done, false, c)
        else quotedWord? single fuel (ch :: done) (c.advance 1)
      else if ch == '"' then some (done, false, c)
      else if ch == '\\' then
        if rest.head?.any isBreak then some (done, true, (c.advance 1).skipBreak)
        else
          match escape? rest with
          | some (meant, n) => quotedWord? single fuel (meant :: done) (c.advance (n + 1))
          | none => none
      else quotedWord? single fuel (ch :: done) (c.advance 1)

def quotedFrom (single : Bool) :
    (fuel : Nat) → (done : List Char) → Cursor → Option Reading
  | 0, _, _ => none
  | fuel + 1, done, c =>
    if c.atDocumentMark || c.atEnd then none
    else
      match quotedWord? single (c.left + 1) done c with
      | none => none
      | some (done, joined, c) =>
        if c.sees (if single then '\'' else '"') then some ⟨done.reverse, c.advance 1, false⟩
        else
          match Gap.read? 0 (c.left + 1) { broken := joined } c with
          | none => none
          | some (gap, c) => quotedFrom single fuel (gap.folded ++ done) c

def quoted? (single : Bool) (c : Cursor) : Option Reading :=
  quotedFrom single (c.left + 1) [] (c.advance 1)

/-! ## Blocks -/

inductive Chomping where
  | strip
  | clip
  | keep
  deriving DecidableEq, Repr

def chomping? : List Char → Option Chomping
  | '+' :: _ => some .keep
  | '-' :: _ => some .strip
  | _ => none

def indicatedIndent? : List Char → Option Nat
  | ch :: _ => if ch.isDigit then some (ch.toNat - 0x30) else none
  | [] => none

def indicators? (c : Cursor) : Option (Chomping × Option Nat × Cursor) :=
  let (chomping, indent, c) :=
    match chomping? c.rest with
    | some chomping =>
      let c := c.advance 1
      match indicatedIndent? c.rest with
      | some n => (chomping, some n, c.advance 1)
      | none => (chomping, none, c)
    | none =>
      match indicatedIndent? c.rest with
      | some n =>
        let c := c.advance 1
        match chomping? c.rest with
        | some chomping => (chomping, some n, c.advance 1)
        | none => (.clip, some n, c)
      | none => (.clip, none, c)
  if indent == some 0 then none else some (chomping, indent, c)

/--
Passes indentation and empty lines.  Where the indentation of the block is not
known yet it is that of the deepest of these lines and the first other one.
-/
def blockBreaks? (indent : Option Nat) :
    (fuel : Nat) → (deepest : Nat) → (breaks : List Char) → Cursor →
      Option (Nat × List Char × Cursor)
  | 0, _, _, _ => none
  | fuel + 1, deepest, breaks, c =>
    let spaces := (c.rest.takeWhile (· == ' ')).length
    let c := c.advance (match indent with
      | some n => min spaces (n - c.column)
      | none => spaces)
    let deepest := max deepest c.column
    if c.sees '\t' && indent.all (c.column < ·) then none
    else if c.atBreak then
      let (text, c) := c.readBreak
      blockBreaks? indent fuel deepest (text.reverse ++ breaks) c
    else some (deepest, breaks, c)

structure BlockText where
  done : List Char := []
  lastBreak : List Char := []
  breaks : List Char := []
  startsBlank : Bool := false
  deriving Inhabited

/-- Adds a line; in a folded block a break between lines without blanks is a space. -/
def BlockText.addLine (t : BlockText) (literal : Bool) (line : List Char) : BlockText :=
  let startsBlank := line.head?.any isBlank
  let folds := !literal && !t.startsBlank && !startsBlank && t.lastBreak == ['\n']
  let between :=
    if folds then if t.breaks.isEmpty then [' '] else t.breaks else t.breaks ++ t.lastBreak
  { done := line.reverse ++ (between ++ t.done), startsBlank := startsBlank }

def blockLines (literal : Bool) (indent : Nat) :
    (fuel : Nat) → BlockText → Cursor → Option (BlockText × Cursor)
  | 0, _, _ => none
  | fuel + 1, t, c =>
    if c.column == indent && !c.atEnd then
      let (line, c) := c.span fun ch => !isBreak ch
      let t := t.addLine literal line
      let (lastBreak, c) := c.readBreak
      match blockBreaks? (some indent) (c.left + 1) 0 [] c with
      | none => none
      | some (_, breaks, c) =>
        blockLines literal indent fuel { t with lastBreak := lastBreak, breaks := breaks } c
    else some (t, c)

def BlockText.chomped (t : BlockText) (chomping : Chomping) : List Char :=
  match chomping with
  | .strip => t.done.reverse
  | .clip => (t.lastBreak ++ t.done).reverse
  | .keep => (t.breaks ++ (t.lastBreak ++ t.done)).reverse

def block? (literal : Bool) (parent : Int) (c : Cursor) : Option Reading :=
  match indicators? (c.advance 1) with
  | none => none
  | some (chomping, indicated, c) =>
    let c := c.skipBlanks
    let c := if c.sees '#' then c.skipToLineEnd else c
    if !c.atLineEnd then none
    else
      let c := c.skipBreak
      let indent := indicated.map fun n => (max parent 0).toNat + n
      match blockBreaks? indent (c.left + 1) 0 [] c with
      | none => none
      | some (deepest, breaks, c) =>
        let indent := indent.getD (max deepest (max (parent + 1).toNat 1))
        (blockLines literal indent (c.left + 1) { breaks := breaks } c).map
          fun (t, c) => ⟨t.chomped chomping, c, false⟩

end Scriptlet.Yaml
