import Scriptlet.Diagnostics.Fault
import Scriptlet.Journal.Logger
import Scriptlet.Run.Evaluation
import Scriptlet.Token.Scan
import Scriptlet.Tree.Program

/-!
# Runs

A run takes a source through scanning, reading and evaluation.  A problem
found before evaluation keeps evaluation from starting.  What a run prints and
logs, in order, is a function of what it did.
-/

namespace Scriptlet

inductive Depth where
  | tokens
  | program
  | evaluation
  deriving DecidableEq, Repr, Inhabited

structure Run where
  id : Bytes
  source : Bytes
  depth : Depth
  scan : Scan
  program : Program
  /-- Absent if evaluation did not start. -/
  execution : Option Execution

namespace Run

def noProgram : Program := ⟨[], []⟩

def staticRecords (scan : Scan) (program : Program) : Diagnostics :=
  scan.records ++ program.records

def start (policy : Unterminated) (id : Bytes) (depth : Depth) (source : Bytes)
    (console : Console) : Run :=
  let scan := Scan.ofSource policy source
  let program := match depth with
    | .tokens => noProgram
    | _ => Program.ofTokens scan.tokens
  let execution := match depth with
    | .evaluation =>
      if (staticRecords scan program).hasStatic then none
      else some (Execution.run console program.stmts)
    | _ => none
  ⟨id, source, depth, scan, program, execution⟩

def console (r : Run) (before : Console) : Console :=
  match r.execution with
  | some execution => execution.console
  | none => before

def outcomes (r : Run) : List Outcome :=
  match r.execution with
  | some execution => execution.outcomes
  | none => []

def evaluated (r : Run) : Bool := r.execution.isSome

def records (r : Run) : Diagnostics :=
  staticRecords r.scan r.program ++
    match r.execution with
    | some execution => execution.records
    | none => []

def report (r : Run) : Bytes := r.records.report

def hasErrors (r : Run) : Bool := !r.records.isEmpty

def values (r : Run) : List Value :=
  (r.outcomes.filter fun o => o.error.isNone).map Outcome.value

def diagnosis? (r : Run) : Option Fault :=
  r.records.fault?.map fun f =>
    f.update fun own => { own with runId := r.id, operation := utf8 "run" }

def fault? (r : Run) : Option Fault :=
  (r.execution.bind Execution.fault?).map fun f =>
    (f.wrap (utf8 "run")).update fun own => { own with runId := r.id }

/-! ## Acts -/

/-- What can be seen of a run from outside: a line that it prints, or an event that it logs. -/
inductive Act where
  | print (line : Bytes)
  | log (event : Event)

namespace Act

def line? : Act → Option Bytes
  | print line => some line
  | log _ => none

def event? : Act → Option Event
  | print _ => none
  | log event => some event

end Act

structure Timing where
  scan : Duration := ⟨0⟩
  parse : Duration := ⟨0⟩
  evaluate : Duration := ⟨0⟩
  total : Duration := ⟨0⟩
  deriving Inhabited

def field (key : String) (value : Datum) : Bytes × Datum := (utf8 key, value)

def scanEvents (scan : Scan) : List Event :=
  let unexpected := (scan.tokens.filter fun t => t.kind == .error).map fun t =>
    Event.trace "unexpected character" [field "char" (.text t.lexeme), field "line" (.int t.line)]
  let lines := (scan.tokens.getLast?.map Token.line).getD 1
  unexpected
    ++ [Event.debug "scan complete"
      [field "tokens" (.ofNat scan.tokens.length), field "lines" (.int lines)]]

def parseEvents (program : Program) : List Event :=
  let errors := program.misfits.map fun m =>
    Event.debug "syntax error"
      [field "line" (.int m.token.line), field "token" (.ofName m.token.kind.name),
        field "message" (.ofName m.expected.message)]
  errors
    ++ [Event.debug "parse complete"
      [field "statements" (.ofNat program.stmts.length),
        field "errors" (.ofNat program.misfits.length)]]

def failure (e : RuntimeError) : Event :=
  Event.debug "runtime error"
    [field "line" (.int e.op.line), field "message" (.ofName e.reason.message),
      field "node" (.text e.node.shown)]

def stage (name : String) (events : List Event) : List Act :=
  events.map fun e => .log (e.within "component" name)

def engine (event : Event) : List Act := stage "lox-engine" [event]

def interpreter (event : Event) : List Act := stage "lox-interpreter" [event]

def outcomeActs (o : Outcome) : List Act :=
  match o.error with
  | some e => interpreter (failure e)
  | none => (o.stmt.line?.map Act.print).toList

/-- The acts of an evaluation; a refused line belongs to the statement behind the last outcome. -/
def evaluationActs (stmts : List Stmt) (execution : Execution) : List Act :=
  execution.outcomes.flatMap outcomeActs ++
    match execution.ending with
    | .completed =>
      interpreter <| Event.debug "evaluation complete"
        [field "statements" (.ofNat stmts.length),
          field "errors" (.ofNat execution.errors.length)]
    | .refused =>
      ((stmts[execution.outcomes.length]?.bind Stmt.line?).map Act.print).toList
    | .absent _ => []

def timed (operation : String) (elapsed : Duration) (fault : Option Fault) : List Act :=
  let timer : Timer := { operation := utf8 operation }
  let stop := match fault with
    | none => timer.stop elapsed
    | some fault => timer.stopWithFault elapsed (some fault)
  stage "lox-engine" stop.events

def finished (r : Run) (total : Duration) : Event :=
  let code := (r.diagnosis?.map fun f => field "error_code" (.text f.code)).toList
  Event.debug "run finished" <|
    [field "tokens" (.ofNat r.scan.tokens.length),
      field "statements" (.ofNat r.program.stmts.length),
      field "errors" (.ofNat r.records.length),
      field "duration_ms" (.float total.milliseconds)]
      ++ code

def acts (r : Run) (timing : Timing) : List Act :=
  let parsing :=
    if r.depth == .tokens then []
    else stage "lox-parser" (parseEvents r.program) ++ timed "parse" timing.parse none
  let evaluation := match r.depth, r.execution with
    | .evaluation, none =>
      engine (Event.debug "evaluation skipped" [field "errors" (.ofNat r.records.length)])
    | _, none => []
    | _, some execution =>
      evaluationActs r.program.stmts execution
        ++ timed "evaluate" timing.evaluate execution.fault?
  engine (Event.debug "run started" [field "bytes" (.ofNat r.source.length)])
    ++ stage "lox-scanner" (scanEvents r.scan)
    ++ timed "scan" timing.scan none
    ++ parsing
    ++ evaluation
    ++ engine (r.finished timing.total)

def lines (r : Run) : List Bytes := (r.acts {}).filterMap Act.line?

def events (r : Run) (timing : Timing) : List Event := (r.acts timing).filterMap Act.event?

def engineEvent (policy : Unterminated) : Event :=
  (Event.debug "engine initialized" [field "unterminated" (.ofName policy.name)]).within
    "component" "lox-engine"

def transcript (source : Bytes) : Bytes :=
  let r := start .error [] .evaluation source {}
  let report := if r.report.isEmpty then [] else r.report ++ [newline]
  (r.console {}).output .stdout 0 ++ report

end Run

end Scriptlet
