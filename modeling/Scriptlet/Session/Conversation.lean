import Scriptlet.Session.Runner
import Scriptlet.Session.Turn

/-!
# Conversations

A conversation prompts for lines and runs each of them by itself, until the
exit command, the end of the lines or a refused write.  Problems of a line are
reported and do not end it.
-/

namespace Scriptlet

/-! ## Lines -/

structure LineSource where
  lines : List Bytes
  /-- The fault that follows the last line; none if the lines just end. -/
  ending : Option Fault := none
  /-- Whether the end of the lines breaks the line behind the prompt. -/
  breaksLine : Bool := false

namespace LineSource

def lineLimit : Nat := 1024 * 1024

def failure (cause : Bytes) (message : String) : Fault :=
  ((Fault.plain cause).wrap (utf8 message)).update fun own =>
    { own.withCode .inputOutput with operation := utf8 "repl.run" }

def tooLong : Fault := failure (utf8 "bufio.Scanner: token too long") "read line"

def promptRefused : Fault := failure Console.refusal "write prompt"

/-- The pieces between newlines, without an empty one behind the last newline. -/
def rawLines (input : Bytes) : List Bytes :=
  let pieces := Bytes.pieces input
  if pieces.getLast? == some [] then pieces.dropLast else pieces

def dropReturn (line : Bytes) : Bytes :=
  if line.getLast? == some 0x0D then line.dropLast else line

/-- The lines of an input stream, as far as the first line that is too long. -/
def ofStream (input : Bytes) : LineSource :=
  let raw := rawLines input
  let short := raw.takeWhile fun line => decide (line.length < lineLimit)
  { lines := short.map dropReturn
    ending := if short.length < raw.length then some tooLong else none
    breaksLine := true }

end LineSource

/-! ## The loop -/

structure Conversation where
  tally : Tally
  fault : Option Fault
  console : Console

namespace Conversation

def proceed (s : Setup) (d : Dialogue) (source : LineSource) :
    (lines : List Bytes) → Tally → Console → Conversation
  | [], t, c =>
    if c.accepts .prompt then
      let prompted := c.write .prompt d.prompt
      ⟨t, source.ending,
        if source.breaksLine then prompted.write .prompt [newline] else prompted⟩
    else ⟨t, some LineSource.promptRefused, c.write .prompt d.prompt⟩
  | line :: rest, t, c =>
    if c.accepts .prompt then
      let prompted := c.write .prompt d.prompt
      match d.turn line with
      | .leave => ⟨t, none, prompted⟩
      | .skip => proceed s d source rest t prompted
      | .run =>
        let step := Runner.run s line t prompted
        match step.fault with
        | some f => ⟨step.tally, some f, step.console⟩
        | none => proceed s d source rest step.tally step.console
    else ⟨t, some LineSource.promptRefused, c.write .prompt d.prompt⟩

/-! ## Log -/

def startEvent (s : Setup) : Event :=
  (Event.debug "session started" [(utf8 "session", .text s.ids.session)]).within
    "component" "repl"

def endEvent (t : Tally) : Event :=
  (Event.debug "session ended"
    [(utf8 "failed", .ofNat t.failed), (utf8 "runs", .ofNat t.runs)]).within "component" "repl"

def start (s : Setup) (d : Dialogue) (source : LineSource) (cancelled : Bool) (c : Console) :
    Conversation :=
  let started := s.note [startEvent s] c
  let ended : Conversation :=
    if cancelled then ⟨{}, none, started⟩ else proceed s d source source.lines {} started
  { ended with console := s.note [endEvent ended.tally] ended.console }

end Conversation

end Scriptlet
