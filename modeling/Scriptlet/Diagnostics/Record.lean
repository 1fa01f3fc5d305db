import Scriptlet.Token.Basic

/-!
# Problem records

Every stage of a run records the problems it finds.  The records of one run
stand in the order of detection, and the report has one line for each.
-/

namespace Scriptlet

inductive Stage where
  | unknown
  | scan
  | parse
  | eval
  deriving DecidableEq, Repr, Inhabited

namespace Stage

def name : Stage → String
  | unknown => "unknown"
  | scan => "scan"
  | parse => "parse"
  | eval => "eval"

def ofCode : Int → Stage
  | 1 => scan
  | 2 => parse
  | 3 => eval
  | _ => unknown

end Stage

structure Record where
  stage : Stage
  line : Int
  site : Bytes
  message : Bytes
  deriving DecidableEq, Repr, Inhabited

def Record.text (r : Record) : Bytes :=
  utf8 "[line " ++ Bytes.ofInt r.line ++ utf8 "] Error" ++ r.site ++ utf8 ": " ++ r.message

def Token.record (t : Token) (stage : Stage) (message : Bytes) : Record :=
  ⟨stage, t.line, t.site, message⟩

/-- The records of one run in the order of detection. -/
abbrev Diagnostics := List Record

namespace Diagnostics

def count (d : Diagnostics) (stage : Stage) : Nat :=
  d.countP fun r => r.stage == stage

/-- Whether a problem was found before evaluation, which then does not start. -/
def hasStatic (d : Diagnostics) : Bool := 0 < d.count .scan + d.count .parse

def hasRuntime (d : Diagnostics) : Bool := 0 < d.count .eval

def report (d : Diagnostics) : Bytes := Bytes.join [newline] (d.map Record.text)

end Diagnostics

end Scriptlet
