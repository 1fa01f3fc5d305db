import Scriptlet.Clock.Moment
import Scriptlet.Datum.Json

/-!
# Faults

A fault is an error with its history.  Faults with a code carry a message, a
severity and details; they may wrap the fault that caused them.  Other faults
are plain texts, labels in front of a fault, and several faults at once.
A fault is classified by its outermost coded fault, found depth first.
-/

namespace Scriptlet

/-! ## Codes and severities -/

abbrev Code := Bytes

namespace Code

def unknown : Code := utf8 "UNKNOWN"

def internal : Code := utf8 "INTERNAL"

def invalidInput : Code := utf8 "INVALID_INPUT"

def notFound : Code := utf8 "NOT_FOUND"

def lexical : Code := utf8 "LOX_LEXICAL"

def grammatical : Code := utf8 "LOX_SYNTAX"

def runtime : Code := utf8 "LOX_RUNTIME"

def configuration : Code := utf8 "CONFIG_ERROR"

def inputOutput : Code := utf8 "IO_ERROR"

def all : List Code :=
  [unknown, internal, invalidInput, notFound, lexical, grammatical, runtime, configuration,
    inputOutput]

def isValid (c : Code) : Bool := all.contains c

def isLanguage (c : Code) : Bool := [lexical, grammatical, runtime].contains c

end Code

inductive Severity where
  | low
  | medium
  | high
  | critical
  | unknown
  deriving DecidableEq, Repr, Inhabited

namespace Severity

def name : Severity → String
  | low => "low"
  | medium => "medium"
  | high => "high"
  | critical => "critical"
  | unknown => "unknown"

def ofRank : Int → Severity
  | 0 => low
  | 1 => medium
  | 2 => high
  | 3 => critical
  | _ => unknown

end Severity

def Code.severity (c : Code) : Severity :=
  if c == internal then .critical
  else if c == inputOutput || c == configuration then .high
  else if [lexical, grammatical, invalidInput, notFound].contains c then .low
  else .medium

/-! ## Faults -/

structure Particulars where
  message : Bytes
  code : Code := Code.unknown
  severity : Severity := .medium
  details : Fields := []
  operation : Bytes := []
  runId : Bytes := []
  deriving Inhabited

namespace Particulars

def withCode (p : Particulars) (code : Code) : Particulars :=
  { p with code := code, severity := code.severity }

def withDetail (p : Particulars) (key : Bytes) (value : Datum) : Particulars :=
  { p with details := p.details.set key value }

end Particulars

inductive Fault where
  | plain (message : Bytes)
  | coded (own : Particulars)
  | wrapped (own : Particulars) (cause : Fault)
  | labelled (label : Bytes) (inner : Fault)
  | joined (members : List Fault)
  deriving Inhabited

namespace Fault

mutual

/-- The full text: messages from the outside in, joined members on lines of their own. -/
def text : Fault → Bytes
  | plain message => message
  | coded own => own.message
  | wrapped own cause => own.message ++ utf8 ": " ++ cause.text
  | labelled label inner => label ++ utf8 ": " ++ inner.text
  | joined members => Bytes.join [newline] (texts members)

def texts : List Fault → List Bytes
  | [] => []
  | member :: members => member.text :: texts members

end

mutual

/--
The coded faults that a search for codes visits: the outermost one, the
outermost one of its cause, and so on.  Of joined faults only the first that
holds a coded fault is visited.
-/
def chain : Fault → List Particulars
  | plain _ => []
  | coded own => [own]
  | wrapped own cause => own :: cause.chain
  | labelled _ inner => inner.chain
  | joined members => firstChain members

def firstChain : List Fault → List Particulars
  | [] => []
  | member :: members =>
    match member.chain with
    | [] => firstChain members
    | own :: more => own :: more

end

def outermost? (f : Fault) : Option Particulars := f.chain.head?

def hasCode (f : Fault) (code : Code) : Bool := f.chain.any fun own => own.code == code

def code (f : Fault) : Code := (f.outermost?.map Particulars.code).getD .unknown

def severity (f : Fault) : Severity :=
  (f.outermost?.map Particulars.severity).getD .medium

/-! ## Building faults -/

/-- Wraps a fault, which passes its code, severity and run on. -/
def wrap (cause : Fault) (message : Bytes) : Fault :=
  match cause.outermost? with
  | none => .wrapped { message := message } cause
  | some inner =>
    .wrapped
      { message := message, code := inner.code, severity := inner.severity,
        runId := inner.runId }
      cause

def update (change : Particulars → Particulars) : Fault → Fault
  | coded own => coded (change own)
  | wrapped own cause => wrapped (change own) cause
  | other => other

def join? (members : List (Option Fault)) : Option Fault :=
  match members.filterMap id with
  | [] => none
  | present => some (joined present)

def label (prefixed : Bytes) : Option Fault → Fault
  | none => plain (prefixed ++ utf8 ": %!w(<nil>)")
  | some inner => labelled prefixed inner

/-! ## Descriptions -/

def own? : Fault → Option Particulars
  | coded own => some own
  | wrapped own _ => some own
  | _ => none

def cause? : Fault → Option Fault
  | wrapped _ cause => some cause
  | _ => none

end Fault

namespace Particulars

def detailsText (details : Fields) : Bytes :=
  utf8 "Details: \x7b" ++ Bytes.join (utf8 ", ") details.shown ++ utf8 "\x7d"

def description (p : Particulars) (cause : Option Fault) : Bytes :=
  let line (label : String) (s : Bytes) : List Bytes := [utf8 label ++ s]
  let unlessEmpty (label : String) (s : Bytes) := if s.isEmpty then [] else line label s
  Bytes.join [newline] <|
    line "Error: " p.message
      ++ line "Code: " p.code
      ++ line "Severity: " (utf8 p.severity.name)
      ++ unlessEmpty "Operation: " p.operation
      ++ unlessEmpty "RunID: " p.runId
      ++ (if p.details.isEmpty then [] else [detailsText p.details])
      ++ (cause.map fun f => utf8 "Cause: " ++ f.text).toList

def exported (p : Particulars) (cause : Option Fault) (time : Moment) : Fields :=
  let unlessEmpty (key : String) (s : Bytes) : Fields :=
    if s.isEmpty then [] else [(utf8 key, .text s)]
  Fields.ofList <|
    [(utf8 "message", .text p.message), (utf8 "code", .text p.code),
      (utf8 "severity", .ofName p.severity.name),
      (utf8 "timestamp", .text time.timestamp)]
      ++ (if p.details.isEmpty then [] else [(utf8 "details", .map p.details)])
      ++ unlessEmpty "operation" p.operation
      ++ unlessEmpty "run_id" p.runId
      ++ (cause.map fun f => (utf8 "cause", Datum.text f.text)).toList

/-- A coded fault as one JSON object; none if a detail has no JSON form. -/
def json? (p : Particulars) (cause : Option Fault) (time : Moment)
    (replacement : Json.Replacement := .escaped) : Option Bytes :=
  Json.ofDatum? replacement (.map (p.exported cause time))

end Particulars

namespace Fault

/-- A fault raised at `time` as a value of a field or a detail. -/
def datum (f : Fault) (time : Moment) : Datum :=
  match f.own? with
  | some own => .error f.text (own.exported f.cause? time)
  | none => .error f.text []

def field (f : Option Fault) (time : Moment) : Fields :=
  [(utf8 "error", (f.map fun f => f.datum time).getD .nil)]

end Fault

end Scriptlet
