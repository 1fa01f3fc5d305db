import Scriptlet.Token.Segment
import Scriptlet.Diagnostics.Record
import Scriptlet.Text.Blank
import Scriptlet.Text.Lowercase
import Scriptlet.Text.Quoted

/-!
# Scanning

The tokens of a source are its lexeme segments, each with the line on which
it ends, followed by one end token.  Characters of no class and, under the
error policy, strings and comments that are never closed are recorded as
problems.
-/

namespace Scriptlet

/-- What becomes of a string or block comment that reaches the end of input. -/
inductive Unterminated where
  /-- It is recorded as a problem and yields no token. -/
  | error
  /-- The end of input closes it. -/
  | eof
  deriving DecidableEq, Repr, Inhabited

namespace Unterminated

def name : Unterminated → String
  | error => "error"
  | eof => "eof"

def parse? (s : Bytes) : Option Unterminated :=
  let word := Lowercase.lower (Blank.trim s)
  if word == [] || word == utf8 "error" then some error
  else if word == utf8 "eof" then some eof
  else none

def complaint (s : Bytes) : Bytes :=
  utf8 "invalid unterminated policy " ++ Quoted.quoted s
    ++ utf8 " (want \"error\" or \"eof\")"

end Unterminated

namespace Segment

def payload (kind : Kind) (content : Bytes) : Payload :=
  match kind with
  | .number => .number ((Decimal.read? content).getD 0)
  | .string => .text (content.drop 1).dropLast
  | _ => .none

def token? (policy : Unterminated) (line : Nat) : Segment → Option Token
  | lexeme kind content => some ⟨kind, content, line, payload kind content⟩
  | openString content =>
    match policy with
    | .eof => some ⟨.string, quote :: content, line, .text content⟩
    | .error => none
  | _ => none

def record? (policy : Unterminated) (line : Nat) : Segment → Option Record
  | lexeme .error _ => some ⟨.scan, line, [], utf8 "Unexpected character."⟩
  | openString _ =>
    match policy with
    | .eof => none
    | .error => some ⟨.scan, line, [], utf8 "Unterminated string."⟩
  | openComment _ =>
    match policy with
    | .eof => none
    | .error => some ⟨.scan, line, [], utf8 "Unterminated block comment."⟩
  | _ => none

/--
What a segment adds to the line counter.  Only newlines by themselves, strings and
block comments are looked through for newlines.
-/
def newlines : Segment → Nat
  | blank byte => if byte == newline then 1 else 0
  | comment (_ :: second :: content) => if second == star then Bytes.countNewlines content else 0
  | comment _ => 0
  | lexeme .string content => Bytes.countNewlines content
  | lexeme _ _ => 0
  | openString content => Bytes.countNewlines content
  | openComment content => Bytes.countNewlines content

/-- The line counter behind some segments, and these, the last one first, each with its line. -/
structure Passed where
  line : Nat := 1
  segments : List (Nat × Segment) := []

/-- A segment has the line on which it ends. -/
def Passed.pass (p : Passed) (segment : Segment) : Passed :=
  let line := p.line + segment.newlines
  ⟨line, (line, segment) :: p.segments⟩

def passed (segments : List Segment) : Passed := segments.foldl Passed.pass {}

def numbered (segments : List Segment) : List (Nat × Segment) :=
  (passed segments).segments.reverse

end Segment

structure Scan where
  tokens : List Token
  records : Diagnostics
  deriving Inhabited

def Scan.ofSource (policy : Unterminated) (source : Bytes) : Scan :=
  let segments := Segment.segments source
  let numbered := Segment.numbered segments
  let last : Token := ⟨.eof, [], (Segment.passed segments).line, .none⟩
  { tokens := numbered.filterMap (fun (line, s) => s.token? policy line) ++ [last]
    records := numbered.filterMap fun (line, s) => s.record? policy line }

end Scriptlet
