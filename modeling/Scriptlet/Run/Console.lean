import Scriptlet.Text.Bytes

/-!
# Consoles

What a program writes is kept as a list of attempted writes.  A stream may
have a limit: it accepts that many writes and refuses all later ones, of
which nothing appears in its output.
-/

namespace Scriptlet

inductive Stream where
  | prompt
  | stdout
  | stderr
  deriving DecidableEq, Repr, Inhabited

namespace Stream

def name : Stream → String
  | prompt => "prompt"
  | stdout => "stdout"
  | stderr => "stderr"

end Stream

structure Write where
  stream : Stream
  content : Bytes
  accepted : Bool
  deriving DecidableEq, Repr, Inhabited

abbrev Script := List (Stream × Bytes)

structure Console where
  /-- How many writes a stream accepts; no limit if there is none. -/
  limit : Stream → Option Nat := fun _ => none
  writes : Array Write := #[]

namespace Console

def refusal : Bytes := utf8 "disk full"

def attempts (c : Console) (s : Stream) : Nat := c.writes.countP fun w => w.stream == s

def accepts (c : Console) (s : Stream) : Bool :=
  match c.limit s with
  | none => true
  | some n => c.attempts s < n

def write (c : Console) (s : Stream) (content : Bytes) : Console :=
  { c with writes := c.writes.push ⟨s, content, c.accepts s⟩ }

def writeAll (c : Console) (s : Stream) (contents : List Bytes) : Console :=
  contents.foldl (fun c content => c.write s content) c

def perform (c : Console) (script : Script) : Console :=
  script.foldl (fun c entry => c.write entry.1 entry.2) c

/-- The accepted writes in order, from the one with index `start` on. -/
def accepted (c : Console) (start : Nat) : List Write :=
  (c.writes.toList.drop start).filter Write.accepted

def output (c : Console) (s : Stream) (start : Nat) : Bytes :=
  ((c.accepted start).filter fun w => w.stream == s).flatMap Write.content

/-- The output of all streams in order; neighbours on one stream are merged. -/
def transcript (c : Console) : List (Stream × Bytes) :=
  (((c.accepted 0).filter fun w => !w.content.isEmpty).splitBy fun a b => a.stream == b.stream)
    |>.filterMap fun group =>
      match group with
      | [] => none
      | w :: _ => some (w.stream, group.flatMap Write.content)

end Console

end Scriptlet
