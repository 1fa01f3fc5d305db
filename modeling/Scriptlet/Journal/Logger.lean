import Scriptlet.Journal.Entry

/-!
# Loggers

A logger turns events into the lines of a log.  Its settings are a value:
changing one gives another logger.
-/

namespace Scriptlet

structure Event where
  level : Level
  message : Bytes
  fields : Fields := []
  error : Option Fault := none
  deriving Inhabited

namespace Event

def trace (message : String) (fields : Fields) : Event := ⟨.trace, utf8 message, fields, none⟩

def debug (message : String) (fields : Fields) : Event := ⟨.debug, utf8 message, fields, none⟩

def within (e : Event) (key : String) (value : String) : Event :=
  { e with fields := Fields.merge [(utf8 key, .ofName value)] e.fields }

def levelOf : Severity → Level
  | .low => .info
  | .medium => .warn
  | _ => .error

/--
The report of a fault: the code, the severity and the operation of its
outermost coded fault, and that fault's details, each under a key of its own.
-/
def ofFault (f : Fault) : Event :=
  match f.outermost? with
  | none => ⟨.error, f.text, [], some f⟩
  | some own =>
    let operation : Fields :=
      if own.operation.isEmpty then [] else [(utf8 "error_operation", .text own.operation)]
    let details := own.details.map fun (key, value) => (utf8 "error_" ++ key, value)
    let fields := Fields.ofList <|
      [(utf8 "error_code", .text own.code), (utf8 "error_severity", .ofName own.severity.name)]
        ++ operation ++ details
    ⟨levelOf own.severity, f.text, fields, some f⟩

end Event

structure Logger where
  level : Level := .warn
  format : Format := .text
  name : Bytes := []
  fields : Fields := []
  runId : Bytes := []
  replacement : Json.Replacement := .escaped
  deriving Inhabited

namespace Logger

def silent : Logger := { level := .off, format := .json }

def withField (l : Logger) (key : Bytes) (value : Datum) : Logger :=
  { l with fields := l.fields.set key value }

def withFields (l : Logger) (fields : Fields) : Logger :=
  { l with fields := l.fields.merge fields }

def isEnabled (l : Logger) (level : Level) : Bool := level.reaches l.level

def entry? (l : Logger) (time : Moment) (e : Event) : Option Entry :=
  if l.isEnabled e.level then
    some
      { time := time, level := e.level, message := e.message, logger := l.name,
        runId := l.runId, fields := l.fields.merge e.fields, error := e.error }
  else none

/-- The line of an event; an entry without JSON form is dropped. -/
def line? (l : Logger) (time : Moment) (e : Event) : Option Bytes :=
  (l.entry? time e).bind fun entry =>
    entry.line? { format := l.format, replacement := l.replacement }

def lines (l : Logger) (time : Moment) (events : List Event) : List Bytes :=
  events.filterMap (l.line? time)

end Logger

/-! ## Timers -/

structure Timer where
  operation : Bytes
  fields : Fields := []
  stopped : Bool := false
  deriving Inhabited

namespace Timer

def withField (t : Timer) (key : Bytes) (value : Datum) : Timer :=
  { t with fields := t.fields.set key value }

def measured (t : Timer) (elapsed : Duration) : Fields :=
  [(utf8 "operation", .text t.operation), (utf8 "duration_ms", .float elapsed.milliseconds)]

def completed (t : Timer) (elapsed : Duration) : Event :=
  ⟨.debug, t.operation ++ utf8 " completed", t.fields.merge (t.measured elapsed), none⟩

def failed (t : Timer) (elapsed : Duration) (fault : Option Fault) : Event :=
  let fields := t.measured elapsed ++ [(utf8 "success", .bool false)]
  ⟨.warn, t.operation ++ utf8 " failed", t.fields.merge fields, fault⟩

structure Stop where
  timer : Timer
  elapsed : Duration
  events : List Event

/-- A timer stops once.  A second stop measures no time and reports nothing. -/
def stopAt (t : Timer) (elapsed : Duration) (report : Event) : Stop :=
  if t.stopped then ⟨t, ⟨0⟩, []⟩ else ⟨{ t with stopped := true }, elapsed, [report]⟩

def stop (t : Timer) (elapsed : Duration) : Stop := t.stopAt elapsed (t.completed elapsed)

def stopWithFault (t : Timer) (elapsed : Duration) (fault : Option Fault) : Stop :=
  t.stopAt elapsed (t.failed elapsed fault)

theorem stopped_stopAt (t : Timer) (elapsed : Duration) (report : Event) :
    (t.stopAt elapsed report).timer.stopped = true := by
  cases h : t.stopped <;> simp [stopAt, h]

theorem stopAt_stopAt (t : Timer) (first second : Duration) (report other : Event) :
    (t.stopAt first report).timer.stopAt second other =
      ⟨(t.stopAt first report).timer, ⟨0⟩, []⟩ := by
  rw [stopAt, if_pos (t.stopped_stopAt first report)]

end Timer

end Scriptlet
