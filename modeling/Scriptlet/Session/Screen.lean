import Scriptlet.Session.Field
import Scriptlet.Session.Runner
import Scriptlet.Session.Turn

/-!
# Full-screen sessions

A screen holds a line that is being edited and, above it, what was entered
and written so far.  Every message changes the screen; nothing is written
anywhere else, because the output of a run is captured and moved to the
screen.
-/

namespace Scriptlet

/-! ## Screen lines -/

inductive LineKind where
  | input
  | output
  | error
  | system
  deriving DecidableEq, Repr, Inhabited

def LineKind.name : LineKind → String
  | input => "input"
  | output => "output"
  | error => "error"
  | system => "system"

structure ScreenLine where
  kind : LineKind
  content : Bytes
  deriving DecidableEq, Repr, Inhabited

namespace ScreenLine

def ofOutput (kind : LineKind) (output : Bytes) : List ScreenLine :=
  match Bytes.dropEndWhile (· == newline) output with
  | [] => []
  | kept => (Bytes.pieces kept).map (ScreenLine.mk kind)

def rows (l : ScreenLine) : List Bytes :=
  Bytes.pieces (Style.unifyBreaks (Style.widenTabs l.content))

end ScreenLine

/-! ## Messages -/

/-- A key with its name and the text that it types; typed text is its own name. -/
structure Keystroke where
  name : Bytes
  typed : Bytes := []
  deriving DecidableEq, Repr, Inhabited

inductive Message where
  | key (stroke : Keystroke)
  | resize (width height : Int)
  deriving DecidableEq, Repr, Inhabited

def Message.ofText (s : Bytes) : Message := .key ⟨s, s⟩

def Message.ofKey (name : Bytes) : Message := .key ⟨name, []⟩

/-! ## Screens -/

structure Screen where
  lines : List ScreenLine
  field : Field := {}
  size : Option (Int × Int) := none
  /-- The number of rows above the first visible one. -/
  offset : Nat := 0
  tally : Tally := {}
  problems : Nat := 0
  /-- What was captured and not yet moved to the screen. -/
  captured : Console := {}
  quitting : Bool := false
  /-- The report of the key that broke the session off. -/
  failure : Option Bytes := none

namespace Screen

def opened (s : Setup) (d : Dialogue) : Screen :=
  { lines := [⟨.system, utf8 "session " ++ Entry.shortRunId s.ids.session ++ utf8 ", "
      ++ Quoted.quoted d.exitCommand ++ utf8 " quits"⟩] }

/-! ### Scrolling -/

def height (m : Screen) : Nat :=
  match m.size with
  | none => 20
  | some (_, h) => (max (h - 6) 1).toNat

def rows (m : Screen) : List Bytes :=
  match m.lines with
  | [] => [[]]
  | lines => lines.flatMap ScreenLine.rows

def lastOffset (m : Screen) : Nat := m.rows.length - m.height

def toBottom (m : Screen) : Screen := { m with offset := m.lastOffset }

def scrolled (m : Screen) (name : Bytes) : Nat :=
  let isAny (names : List String) : Bool := (names.map utf8).contains name
  let down (n : Nat) : Nat := min (m.offset + n) m.lastOffset
  if isAny ["pgdown", " ", "f"] then down m.height
  else if isAny ["pgup", "b"] then m.offset - m.height
  else if isAny ["d", "ctrl+d"] then down (m.height / 2)
  else if isAny ["u", "ctrl+u"] then m.offset - m.height / 2
  else if isAny ["down", "j"] then down 1
  else if isAny ["up", "k"] then m.offset - 1
  else m.offset

/-! ### Running -/

def outcomeLines (step : Step) : List ScreenLine :=
  ScreenLine.ofOutput .output (step.console.output .stdout 0)
    ++ ScreenLine.ofOutput .error (step.console.output .stderr 0)
    ++ (step.fault.map fun f => ⟨.error, f.text⟩).toList

/-- The number of problems of a run; a refused write is one more. -/
def problemsOf (step : Step) : Nat :=
  let records := match step.run with
    | some run => run.records.length
    | none => 0
  match step.fault with
  | some f => if f.hasCode .inputOutput then records + 1 else records
  | none => records

def execute (s : Setup) (d : Dialogue) (line : Bytes) (m : Screen) : Screen :=
  let step := Runner.run { s with logger := Logger.silent } line m.tally m.captured
  { m with
    lines := m.lines ++ ⟨.input, d.prompt ++ line⟩ :: outcomeLines step
    tally := step.tally
    problems := problemsOf step
    captured := {} }

def submit (s : Setup) (d : Dialogue) (line : Bytes) (m : Screen) : Screen :=
  let emptied := { m with field := {} }
  match d.turn line with
  | .skip => emptied
  | .leave => { emptied with quitting := true }
  | .run => (execute s d (Blank.trim line) emptied).toBottom

/-! ### Messages -/

inductive Control where
  | quit
  | submit
  | clear
  deriving DecidableEq, Repr, Inhabited

def control? (name : Bytes) : Option Control :=
  if name == utf8 "ctrl+c" || name == utf8 "esc" then some .quit
  else if name == utf8 "enter" then some .submit
  else if name == utf8 "ctrl+l" then some .clear
  else none

def failure? (m : Screen) : Message → Option Bytes
  | .resize _ _ => none
  | .key stroke => if m.field.fails stroke.name then some m.field.failure else none

def respond (s : Setup) (d : Dialogue) (m : Screen) : Message → Screen
  | .resize width height => { m with size := some (width, height) }.toBottom
  | .key stroke =>
    match control? stroke.name with
    | some .quit => { m with quitting := true }
    | some .submit => m.submit s d m.field.value
    | some .clear => { m with lines := [] }.toBottom
    | none =>
      { m with
        field := m.field.press stroke.name stroke.typed
        offset := m.scrolled stroke.name }

/-- A key that fails breaks the session off: nothing changes the screen after it. -/
def update (s : Setup) (d : Dialogue) (m : Screen) (message : Message) : Screen :=
  if m.failure.isSome then m
  else
    match m.failure? message with
    | some report => { m with failure := some report }
    | none => m.respond s d message

def after (s : Setup) (d : Dialogue) (messages : List Message) : Screen :=
  messages.foldl (update s d) (opened s d)

def quits (d : Dialogue) (m : Screen) : Message → Bool
  | .resize _ _ => false
  | .key stroke =>
    match control? stroke.name with
    | some .quit => true
    | some .submit => d.turn m.field.value == .leave
    | _ => false

/-! ### Views -/

inductive View where
  | blank
  | loading
  | frame (rows : List Bytes) (status : Bytes)
  deriving DecidableEq, Repr, Inhabited

def status (m : Screen) : Bytes :=
  let verdict : Bytes :=
    if 0 < m.problems then Bytes.ofNat m.problems ++ utf8 " error(s)" else utf8 "ok"
  utf8 " runs: " ++ Bytes.ofNat m.tally.runs ++ utf8 "  " ++ verdict
    ++ utf8 "  enter: run  ctrl+l: clear  esc: quit"

def visible (m : Screen) : List Bytes :=
  let shown := (m.rows.drop m.offset).take m.height
  shown ++ List.replicate (m.height - shown.length) []

def view (m : Screen) : View :=
  if m.quitting then .blank
  else if m.size.isNone then .loading
  else .frame m.visible m.status

end Screen

end Scriptlet
