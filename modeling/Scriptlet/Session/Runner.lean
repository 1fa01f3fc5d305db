import Scriptlet.Run.Engine
import Scriptlet.Session.Ids
import Scriptlet.Session.Renderer
import Scriptlet.World.Files

/-!
# Running units

A runner runs one source after the other, reports their problems and, if
asked to, echoes the value of a last expression statement.  A refused write
is a fault of the run.
-/

namespace Scriptlet

/-! ## Exit codes -/

namespace Exit

def ok : Nat := 0

def usage : Nat := 64

def badData : Nat := 65

def failure : Nat := 70

def inputOutput : Nat := 74

def ofFault (f : Fault) : Nat :=
  let code := f.code
  if code == Code.inputOutput then inputOutput
  else if code == Code.configuration || code == Code.invalidInput then usage
  else failure

def ofRecords (d : Diagnostics) : Nat :=
  if d.hasStatic then badData else if d.hasRuntime then failure else ok

def code (run : Option Run) (fault : Option Fault) : Nat :=
  match fault, run with
  | some f, _ => ofFault f
  | none, some r => ofRecords r.records
  | none, none => ok

end Exit

/-! ## Runners -/

structure Setup where
  policy : Unterminated := .error
  echo : Bool := false
  renderer : Renderer := {}
  logger : Logger := Logger.silent
  time : Moment := ⟨1, 1, 1, 0, 0, 0, 0⟩
  ids : Ids

namespace Setup

def sessionLogger (s : Setup) : Logger :=
  s.logger.withField (utf8 "session") (.text s.ids.session)

/-- Writes events that belong to no session to the log, which goes to the error stream. -/
def note (s : Setup) (events : List Event) (c : Console) : Console :=
  c.writeAll .stderr (s.logger.lines s.time events)

def log (s : Setup) (events : List Event) (c : Console) : Console :=
  c.writeAll .stderr (s.sessionLogger.lines s.time events)

def runLogger (s : Setup) (r : Run) : Logger := { s.sessionLogger with runId := r.id }

def writes (s : Setup) (r : Run) : Run.Act → Script
  | .print line => [(.stdout, line)]
  | .log event => ((s.runLogger r).line? s.time event).toList.map (.stderr, ·)

/-- All that a run writes, its lines and its log in the order in which they come up. -/
def work (s : Setup) (r : Run) : Script := (r.acts {}).flatMap (s.writes r)

def opened (s : Setup) (c : Console) : Console := s.log [Run.engineEvent s.policy] c

end Setup

structure Tally where
  runs : Nat := 0
  failed : Nat := 0
  deriving DecidableEq, Repr, Inhabited

def Tally.count (t : Tally) (r : Run) : Tally :=
  ⟨t.runs + 1, if r.hasErrors then t.failed + 1 else t.failed⟩

structure Step where
  run : Option Run
  fault : Option Fault
  tally : Tally
  console : Console

namespace Step

def exit (s : Step) : Nat := Exit.code s.run s.fault

end Step

namespace Runner

def refused (message : String) : Fault :=
  ((Fault.plain Console.refusal).wrap (utf8 message)).update fun own =>
    { own.withCode .inputOutput with operation := utf8 "runner.write" }

def trailingValue? (r : Run) : Option Value :=
  match r.outcomes.getLast? with
  | some ⟨.expression _, v, none⟩ => some v
  | _ => none

/-- Attempts to write the report of a run, if there is one; tells whether that was refused. -/
def report (s : Setup) (r : Run) (c : Console) : Console × Bool :=
  if r.report.isEmpty then (c, false)
  else
    let refused := !c.accepts .stderr
    (c.write .stderr (s.renderer.diagnostics r.report ++ [newline]), refused)

/--
Runs one unit.  What a stream accepts does not depend on the others, so the run is
started on a console without its log; then its lines and its log are written.
-/
def run (s : Setup) (source : Bytes) (t : Tally) (c : Console) : Step :=
  let r := Run.start s.policy (s.ids.run t.runs) .evaluation source c
  let c := c.perform (s.work r)
  let (c, reportRefused) := report s r c
  let fault := r.fault?.or (if reportRefused then some (refused "write diagnostics") else none)
  let done (fault : Option Fault) (c : Console) : Step := ⟨some r, fault, t.count r, c⟩
  match fault, (if s.echo then trailingValue? r else none) with
  | some f, _ => done (some f) c
  | none, none => done none c
  | none, some v =>
    let fault := if c.accepts .stdout then none else some (refused "write value")
    done fault (c.write .stdout (s.renderer.echo v ++ [newline]))

def inspect (s : Setup) (depth : Depth) (source : Bytes) (t : Tally) (c : Console) : Step :=
  let r := Run.start s.policy (s.ids.run t.runs) depth source c
  let c := c.perform (s.work r)
  let (c, reportRefused) := report s r c
  ⟨some r, if reportRefused then some (refused "write diagnostics") else none, t.count r, c⟩

def readSource (files : Files) (input path : Bytes) : Except Fault Bytes :=
  if path == utf8 "-" then .ok input
  else
    match files.read path with
    | .ok content => .ok content
    | .error complaint =>
      .error <| ((Fault.plain complaint).wrap (utf8 "read source")).update fun own =>
        { (own.withCode .inputOutput).withDetail (utf8 "path") (.text path) with
          operation := utf8 "runner.read" }

def runFile (s : Setup) (files : Files) (input path : Bytes) (t : Tally) (c : Console) : Step :=
  match readSource files input path with
  | .error f => ⟨none, some f, t, c⟩
  | .ok source =>
    let event := Event.debug "running file"
      [(utf8 "path", .text path), (utf8 "bytes", .ofNat source.length)]
    run s source t (s.log [event] c)

end Runner

end Scriptlet
