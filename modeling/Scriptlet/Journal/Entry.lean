import Scriptlet.Clock.Duration
import Scriptlet.Fault.Basic
import Scriptlet.Journal.Level
import Scriptlet.Text.Quoted

/-!
# Log entries

An entry is written as one line in one of four formats.  In the JSON format
the entry's own items stand above fields of the same name.
-/

namespace Scriptlet

structure Entry where
  time : Moment
  level : Level
  message : Bytes
  logger : Bytes := []
  runId : Bytes := []
  fields : Fields := []
  error : Option Fault := none
  /-- A duration is shown only if it is positive. -/
  duration : Duration := ⟨0⟩
  deriving Inhabited

namespace Entry

def shortRunId (id : Bytes) : Bytes := id.take 8

def hasDuration (e : Entry) : Bool := 0 < e.duration.nanoseconds

def unlessEmpty (s : Bytes) (item : Bytes → Bytes) : List Bytes :=
  if s.isEmpty then [] else [item s]

def bracketed (opening : String) (s : Bytes) (closing : String) : Bytes :=
  utf8 opening ++ s ++ utf8 closing

def errorItem (e : Entry) : List Bytes :=
  (e.error.map fun f => utf8 "error=" ++ Quoted.quoted f.text).toList

/-! ## Formats -/

def plainLine (e : Entry) (withTime : Bool) : Bytes :=
  let time := if withTime then [e.time.clock] else []
  let fields :=
    if e.fields.isEmpty then []
    else [bracketed "[" (Bytes.join [space] e.fields.shown) "]"]
  let duration := if e.hasDuration then [utf8 "duration=" ++ e.duration.text] else []
  Bytes.join [space] <|
    time
      ++ [bracketed "[" (utf8 e.level.shortName) "]"]
      ++ unlessEmpty e.logger (bracketed "\x7b" · "\x7d")
      ++ unlessEmpty e.runId (fun id => bracketed "(run=" (shortRunId id) ")")
      ++ [e.message]
      ++ fields
      ++ e.errorItem
      ++ duration

def logfmtValue : Datum → Bytes
  | .text s => Quoted.quoted s
  | .error s _ => Quoted.quoted s
  | d => d.shown

def logfmtLine (e : Entry) : Bytes :=
  let duration :=
    if e.hasDuration then [utf8 "duration_ms=" ++ Decimal.fixed 3 e.duration.milliseconds]
    else []
  Bytes.join [space] <|
    [utf8 "timestamp=" ++ e.time.timestamp, utf8 "level=" ++ utf8 e.level.name,
      utf8 "message=" ++ Quoted.quoted e.message]
      ++ unlessEmpty e.logger (utf8 "logger=" ++ ·)
      ++ unlessEmpty e.runId (utf8 "run_id=" ++ ·)
      ++ e.fields.map (fun (key, value) => key ++ utf8 "=" ++ logfmtValue value)
      ++ e.errorItem
      ++ duration

/-- A field value as JSON holds it: an error is its text. -/
def jsonValue : Datum → Datum
  | .error s _ => .text s
  | d => d

def ownItems (e : Entry) : Fields :=
  [(utf8 "timestamp", .text e.time.timestamp), (utf8 "level", .ofName e.level.name),
    (utf8 "message", .text e.message)]
    ++ (if e.logger.isEmpty then [] else [(utf8 "logger", .text e.logger)])
    ++ (if e.runId.isEmpty then [] else [(utf8 "run_id", .text e.runId)])
    ++ (e.error.map fun f => (utf8 "error", Datum.text f.text)).toList
    ++ (if e.hasDuration then [(utf8 "duration_ms", .float e.duration.milliseconds)] else [])

def jsonFields (e : Entry) : Fields :=
  Fields.merge (e.fields.map fun (key, value) => (key, jsonValue value)) e.ownItems

/-- How a format writes: whether it shows the time and uses colors, and how JSON replaces bytes. -/
structure Style where
  format : Format
  time : Bool := true
  color : Bool := true
  replacement : Json.Replacement := .escaped
  deriving DecidableEq, Repr, Inhabited

/-- The line of an entry; none if a field has no JSON form. -/
def line? (e : Entry) (style : Style) : Option Bytes :=
  match style.format.effective with
  | .text => some (e.plainLine style.time ++ [newline])
  | .console =>
    if style.color then
      some (bracketed e.level.color (e.plainLine style.time) "\x1b[0m\n")
    else some (e.plainLine style.time ++ [newline])
  | .logfmt => some (e.logfmtLine ++ [newline])
  | _ => (Json.ofDatum? style.replacement (.map e.jsonFields)).map (· ++ [newline])

end Entry

end Scriptlet
