import Scriptlet.Yaml.Scalar
import Scriptlet.Yaml.Token

/-!
# From characters to tokens

Tokens are fetched one by one into a queue.  What stands at the start of a line
or behind certain marks may turn out to be a key, once a colon follows on the
same line; then the tokens that start a key, and perhaps a mapping, are put in
front of it.  So a token is handed out only when it can no longer become a key,
and never before two more tokens have been fetched.
-/

namespace Scriptlet.Yaml

structure Candidate where
  number : Nat
  required : Bool
  index : Nat
  line : Nat
  column : Nat
  deriving DecidableEq, Repr, Inhabited

structure Scanner where
  cursor : Cursor
  queue : List Token := [.streamStart]
  handedOut : Nat := 0
  indent : Int := -1
  indents : List Int := []
  candidate : Option Candidate := none
  outer : List (Option Candidate) := []
  keyAllowed : Bool := true
  deriving Inhabited

namespace Scanner

def deepest : Nat := 10000

def inFlow (s : Scanner) : Bool := !s.outer.isEmpty

def push (s : Scanner) (token : Token) : Scanner := { s with queue := s.queue ++ [token] }

def nextNumber (s : Scanner) : Nat := s.handedOut + s.queue.length

/-! ## Candidates -/

def isFresh (s : Scanner) (k : Candidate) : Bool :=
  s.cursor.line ≤ k.line && s.cursor.index ≤ k.index + 1024

def dropCandidate? (s : Scanner) : Option Scanner :=
  if s.candidate.any Candidate.required then none else some { s with candidate := none }

def saveCandidate? (s : Scanner) : Option Scanner :=
  if s.keyAllowed then
    let c := s.cursor
    s.dropCandidate?.map fun s =>
      { s with
        candidate := some
          { number := s.nextNumber
            required := !s.inFlow && s.indent == c.column
            index := c.index, line := c.line, column := c.column } }
  else some s

/-! ## Indentation -/

def roll? (s : Scanner) (column : Nat) (place : Nat) (token : Token) : Option Scanner :=
  if s.inFlow || column ≤ s.indent then some s
  else if deepest ≤ s.indents.length then none
  else
    some { s with
      indents := s.indent :: s.indents
      indent := column
      queue := s.queue.insertIdx place token }

def unrollFrom (column : Int) : List Int → Scanner → Scanner
  | [], s => s
  | outer :: rest, s =>
    if column < s.indent then
      unrollFrom column rest { s.push .blockEnd with indent := outer, indents := rest }
    else s

def unroll (s : Scanner) (column : Int) : Scanner :=
  if s.inFlow then s else unrollFrom column s.indents s

/-! ## Fetching -/

/-- Passes blanks, comments and line breaks; a tab cannot stand where a key can. -/
def toNextToken : (fuel : Nat) → Scanner → Scanner
  | 0, s => s
  | fuel + 1, s =>
    let isGap (ch : Char) : Bool := ch == ' ' || ((s.inFlow || !s.keyAllowed) && ch == '\t')
    let c := s.cursor.skipWhile isGap
    let c := if c.sees '#' then c.skipComments c.left else c
    if c.atBreak then
      toNextToken fuel
        { s with cursor := c.skipBreak, keyAllowed := s.keyAllowed || !s.inFlow }
    else { s with cursor := c }

def fetchMark (s : Scanner) (token : Token) : Scanner :=
  { s with cursor := s.cursor.advance 1 }.push token

def closeAll? (s : Scanner) : Option Scanner :=
  (s.unroll (-1)).dropCandidate?.map fun s => { s with keyAllowed := false }

def fetchStreamEnd? (s : Scanner) : Option Scanner :=
  let c := s.cursor
  let line := if c.column == 0 then c.line else c.line + 1
  let s : Scanner := { s with cursor := { c with column := 0, line := line } }
  s.closeAll?.map fun s => s.push .streamEnd

def fetchDirective? (s : Scanner) : Option Scanner :=
  s.closeAll?.bind fun s =>
    (directive? s.cursor).map fun (token, c) => { s with cursor := c }.push token

def fetchDocumentMark? (s : Scanner) (token : Token) : Option Scanner :=
  s.closeAll?.map fun s => { s with cursor := s.cursor.advance 3 }.push token

def fetchFlowStart? (s : Scanner) (token : Token) : Option Scanner :=
  if deepest ≤ s.outer.length then none
  else s.saveCandidate?.map fun s =>
    { s with candidate := none, outer := s.candidate :: s.outer, keyAllowed := true }.fetchMark
      token

def fetchFlowEnd? (s : Scanner) (token : Token) : Option Scanner :=
  s.dropCandidate?.map fun s =>
    let s := match s.outer with
      | [] => s
      | candidate :: outer => { s with candidate := candidate, outer := outer }
    { s with keyAllowed := false }.fetchMark token

def fetchFlowEntry? (s : Scanner) : Option Scanner :=
  s.dropCandidate?.map fun s => { s with keyAllowed := true }.fetchMark .flowEntry

def rollHere? (s : Scanner) (token : Token) : Option Scanner :=
  if s.inFlow then some s
  else if s.keyAllowed then s.roll? s.cursor.column s.queue.length token
  else none

def fetchBlockEntry? (s : Scanner) : Option Scanner :=
  (s.rollHere? .blockSequenceStart).bind fun s =>
    s.dropCandidate?.map fun s => { s with keyAllowed := true }.fetchMark .blockEntry

def fetchKey? (s : Scanner) : Option Scanner :=
  (s.rollHere? .blockMappingStart).bind fun s =>
    s.dropCandidate?.map fun s => { s with keyAllowed := !s.inFlow }.fetchMark .key

/-- A colon makes a key of the candidate, or else follows a key that has its own mark. -/
def fetchValue? (s : Scanner) : Option Scanner :=
  let plainly (s : Scanner) : Option Scanner :=
    (s.rollHere? .blockMappingStart).map fun s =>
      { s with keyAllowed := !s.inFlow }.fetchMark .value
  match s.candidate with
  | none => plainly s
  | some k =>
    if s.isFresh k then
      let place := k.number - s.handedOut
      let s := { s with queue := s.queue.insertIdx place .key, candidate := none }
      (s.roll? k.column place .blockMappingStart).map fun s =>
        { s with keyAllowed := false }.fetchMark .value
    else if k.required then none
    else plainly { s with candidate := none }

def fetchNamed? (s : Scanner) (read : Cursor → Option (Token × Cursor)) : Option Scanner :=
  s.saveCandidate?.bind fun s =>
    (read s.cursor).map fun (token, c) => { s with cursor := c, keyAllowed := false }.push token

def fetchBlock? (s : Scanner) (literal : Bool) : Option Scanner :=
  s.dropCandidate?.bind fun s =>
    (block? literal s.indent s.cursor).map fun r =>
      { s with cursor := r.cursor, keyAllowed := true }.push (.scalar (encode r.text) false)

def fetchQuoted? (s : Scanner) (single : Bool) : Option Scanner :=
  s.fetchNamed? fun c =>
    (quoted? single c).map fun r => (.scalar (encode r.text) false, r.cursor)

def fetchPlain? (s : Scanner) : Option Scanner :=
  s.saveCandidate?.bind fun s =>
    (plain? s.inFlow s.indent s.cursor).map fun r =>
      { s with cursor := r.cursor, keyAllowed := r.brokeLine }.push (.scalar (encode r.text) true)

def indicatorChars : List Char :=
  ['-', '?', ':', ',', '[', ']', '\x7b', '\x7d', '#', '&', '*', '!', '|', '>', '\'', '"', '%',
    '@', '\x60']

def startsPlain (inFlow : Bool) (ch : Char) (rest : List Char) : Bool :=
  !(isBlank ch || isBreak ch || indicatorChars.contains ch)
    || (ch == '-' && !(rest.head?.any isBlank))
    || (!inFlow && (ch == '?' || ch == ':') && !endsWord rest)

def fetchAt? (s : Scanner) (ch : Char) (rest : List Char) : Option Scanner :=
  let apart := s.inFlow || endsWord rest
  match ch with
  | '[' => s.fetchFlowStart? .flowSequenceStart
  | '\x7b' => s.fetchFlowStart? .flowMappingStart
  | ']' => s.fetchFlowEnd? .flowSequenceEnd
  | '\x7d' => s.fetchFlowEnd? .flowMappingEnd
  | ',' => s.fetchFlowEntry?
  | '*' => s.fetchNamed? fun c => (anchorName? c).map fun (name, c) => (.alias name, c)
  | '&' => s.fetchNamed? fun c => (anchorName? c).map fun (name, c) => (.anchor name, c)
  | '!' => s.fetchNamed? tag?
  | '\'' => s.fetchQuoted? true
  | '"' => s.fetchQuoted? false
  | ch =>
    if ch == '-' && endsWord rest then s.fetchBlockEntry?
    else if ch == '?' && apart then s.fetchKey?
    else if ch == ':' && apart then s.fetchValue?
    else if (ch == '|' || ch == '>') && !s.inFlow then s.fetchBlock? (ch == '|')
    else if startsPlain s.inFlow ch rest then s.fetchPlain?
    else none

def skipLineComment (s : Scanner) : Scanner :=
  if s.queue.getLast? == some .blockEntry then s
  else { s with cursor := s.cursor.skipLineComment }

def fetch? (s : Scanner) : Option Scanner :=
  let s := s.toNextToken (s.cursor.left + 1)
  let s := s.unroll s.cursor.column
  match s.cursor.rest with
  | [] => s.fetchStreamEnd?
  | ch :: rest =>
    if s.cursor.column == 0 && ch == '%' then s.fetchDirective?
    else if s.cursor.atDocumentMark then
      s.fetchDocumentMark? (if ch == '-' then .documentStart else .documentEnd)
    else (s.fetchAt? ch rest).map skipLineComment

/-! ## Handing out -/

def headCandidate? (s : Scanner) : Option Candidate :=
  (s.candidate :: s.outer).findSome? fun k => k.filter fun k => k.number == s.handedOut

def fill? : (fuel : Nat) → Scanner → Option Scanner
  | 0, _ => none
  | fuel + 1, s =>
    if s.queue.length < 3 then s.fetch?.bind (fill? fuel)
    else
      match s.headCandidate? with
      | none => some s
      | some k =>
        if s.isFresh k then s.fetch?.bind (fill? fuel)
        else if k.required then none
        else some s

def handOut (done : List Token) : (fuel : Nat) → Scanner → List Token
  | 0, _ => done.reverse
  | fuel + 1, s =>
    match fill? (s.cursor.left + 8) s with
    | none => done.reverse
    | some s =>
      match s.queue with
      | [] => done.reverse
      | .streamEnd :: _ => (.streamEnd :: done).reverse
      | token :: queue =>
        handOut (token :: done) fuel { s with queue := queue, handedOut := s.handedOut + 1 }

end Scanner

def tokens (s : List Char) : List Token :=
  Scanner.handOut [] (4 * s.length + 8) { cursor := Cursor.start s }

end Scriptlet.Yaml
