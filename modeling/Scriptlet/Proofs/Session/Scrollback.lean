import Mathlib.Data.List.DropRight
import Scriptlet.Proofs.Session.Transcript
import Scriptlet.Session.Screen

/-!
# Scrollback of full-screen sessions

A screen runs its lines on a console that is emptied behind each of them.  So
what a session shows is one block a line, and a block depends on no other line
(`lived_blocks`).
-/

namespace Scriptlet

/-! ## Sessions -/

/-- What happens to a screen: a message, or its field is filled with something else. -/
inductive Happening where
  | message (m : Message)
  | fill (field : Field)
  deriving DecidableEq, Repr, Inhabited

namespace Happening

/-- What changes the lines above the field. -/
inductive Effect where
  | entered (value : Bytes)
  | cleared
  deriving DecidableEq, Repr, Inhabited

def effect? (field : Field) : Happening → Option Effect
  | .fill _ => none
  | .message (.resize _ _) => none
  | .message (.key stroke) =>
    match Screen.control? stroke.name with
    | some .submit => some (.entered field.value)
    | some .clear => some .cleared
    | _ => none

def fieldAfter (field : Field) : Happening → Field
  | .fill other => other
  | .message (.resize _ _) => field
  | .message (.key stroke) =>
    match Screen.control? stroke.name with
    | some .submit => {}
    | some _ => field
    | none => field.press stroke.name stroke.typed

def fails (field : Field) : Happening → Bool
  | .message (.key stroke) => field.fails stroke.name
  | _ => false

/-- What changes the lines, up to the key that breaks the session off. -/
def effects : (field : Field) → List Happening → List Effect
  | _, [] => []
  | field, h :: rest =>
    if h.fails field then []
    else (h.effect? field).toList ++ effects (h.fieldAfter field) rest

end Happening

namespace Happening.Effect

def unit? (d : Dialogue) : Effect → Option Bytes
  | .entered value => if d.IsUnit value then some (Blank.trim value) else none
  | .cleared => none

def units (d : Dialogue) (effects : List Effect) : List Bytes := effects.filterMap (unit? d)

def sinceCleared (effects : List Effect) : List Effect :=
  effects.rtakeWhile fun effect => effect != .cleared

variable (d : Dialogue) (effects : List Effect)

private theorem units_append (front back : List Effect) :
    units d (front ++ back) = units d front ++ units d back :=
  List.filterMap_append

private theorem sinceCleared_cleared : sinceCleared (effects ++ [.cleared]) = [] :=
  List.rtakeWhile_concat_neg _ _ _ (by simp)

theorem sinceCleared_entered (value : Bytes) :
    sinceCleared (effects ++ [.entered value]) = sinceCleared effects ++ [.entered value] :=
  List.rtakeWhile_concat_pos _ _ _ (by simp)

end Happening.Effect

/-! ## Blocks -/

def Setup.silenced (s : Setup) : Setup := { s with logger := Logger.silent }

namespace Screen

variable (s : Setup) (d : Dialogue)

/-- What a line adds to the screen: itself, what it prints and its problems. -/
def block (line : Bytes) : List ScreenLine :=
  ⟨.input, d.prompt ++ line⟩ ::
    (ScreenLine.ofOutput .output ((Runner.alone s.silenced line).console.output .stdout 0)
      ++ ScreenLine.ofOutput .error ((Runner.alone s.silenced line).console.output .stderr 0))

private theorem outcomeLines_of_faultless {step : Step} (h : step.fault = none) :
    outcomeLines step =
      ScreenLine.ofOutput .output (step.console.output .stdout 0)
        ++ ScreenLine.ofOutput .error (step.console.output .stderr 0) := by
  simp [outcomeLines, h]

private theorem problemsOf_of_faultless {step : Step} {r : Run} (hrun : step.run = some r)
    (h : step.fault = none) : problemsOf step = r.records.length := by
  simp [problemsOf, hrun, h]

theorem execute_of_empty (line : Bytes) {m : Screen} (h : m.captured = {}) :
    execute s d line m =
      { m with
        lines := m.lines ++ block s d line
        tally := ⟨m.tally.runs + 1, if Run.problems s.policy line = [] then m.tally.failed
          else m.tally.failed + 1⟩
        problems := (Run.problems s.policy line).length
        captured := {} } := by
  have hempty := Console.unlimited_empty
  obtain ⟨step, hstep⟩ : ∃ step, step = Runner.run s.silenced line m.tally {} := ⟨_, rfl⟩
  have hexecute : execute s d line m =
      { m with
        lines := m.lines ++ ⟨.input, d.prompt ++ line⟩ :: outcomeLines step
        tally := step.tally
        problems := problemsOf step
        captured := {} } := by
    rw [hstep, execute, h]
    rfl
  have houtput (stream : Stream) :
      step.console.output stream 0 =
        (Runner.alone s.silenced line).console.output stream 0 := by
    rw [Runner.output_alone, ← Runner.script_of_off s.silenced m.tally.runs line rfl, hstep,
      Runner.output_run]
  rw [Runner.run_of_unlimited s.silenced line m.tally hempty] at hstep
  have hfault : step.fault = none := by rw [hstep]
  rw [hexecute, outcomeLines_of_faultless hfault,
    problemsOf_of_faultless (congrArg Step.run hstep) hfault, houtput, houtput,
    Run.records_eq_problems _ _ _ hempty, hstep, Runner.count_of_unlimited _ _ _ _ hempty]
  rfl

/-! ## Steps -/

open Happening

def undergo (m : Screen) : Happening → Screen
  | .message sent => m.update s d sent
  | .fill field => { m with field := field }

def react (m : Screen) : Happening → Screen
  | .message sent => m.respond s d sent
  | .fill field => { m with field := field }

def lived (happenings : List Happening) : Screen := happenings.foldl (undergo s d) (opened s d)

/-- What a screen shows and counts is given by the effects so far. -/
structure Reflects (m : Screen) (effects : List Effect) : Prop where
  captured : m.captured = {}
  runs : m.tally.runs = (Effect.units d effects).length
  problems : m.problems =
    ((Effect.units d effects).getLast?.map fun line =>
      (Run.problems s.policy line).length).getD 0
  lines : m.lines =
    (if .cleared ∈ effects then [] else (opened s d).lines)
      ++ (Effect.units d (Effect.sinceCleared effects)).flatMap (block s d)

theorem reflects_opened : Reflects s d (opened s d) [] :=
  ⟨rfl, rfl, rfl, by simp [Effect.units, Effect.sinceCleared]⟩

section Reflects

variable {s d} {m : Screen} {effects : List Effect} (h : Reflects s d m effects)
include h

theorem Reflects.of_eq {m' : Screen} (hlines : m'.lines = m.lines) (htally : m'.tally = m.tally)
    (hproblems : m'.problems = m.problems) (hcaptured : m'.captured = m.captured) :
    Reflects s d m' effects :=
  ⟨hcaptured.trans h.captured, htally ▸ h.runs, hproblems.trans h.problems,
    hlines.trans h.lines⟩

theorem Reflects.clear : Reflects s d { m with lines := [] } (effects ++ [.cleared]) := by
  have hunits : Effect.units d (effects ++ [.cleared]) = Effect.units d effects := by
    rw [Effect.units_append]
    exact List.append_nil _
  constructor
  · exact h.captured
  · rw [hunits]
    exact h.runs
  · rw [hunits]
    exact h.problems
  · rw [if_pos (by simp), Effect.sinceCleared_cleared]
    rfl

theorem Reflects.of_not_isUnit {value : Bytes} (hvalue : ¬d.IsUnit value) :
    Reflects s d m (effects ++ [.entered value]) := by
  have hunits (effects : List Effect) :
      Effect.units d (effects ++ [.entered value]) = Effect.units d effects := by
    simp [Effect.units, Effect.unit?, hvalue]
  constructor
  · exact h.captured
  · rw [hunits]
    exact h.runs
  · rw [hunits]
    exact h.problems
  · rw [Effect.sinceCleared_entered, hunits]
    simpa using h.lines

theorem Reflects.execute {value : Bytes} (hvalue : d.IsUnit value) :
    Reflects s d (m.execute s d (Blank.trim value)) (effects ++ [.entered value]) := by
  have hunits (effects : List Effect) :
      Effect.units d (effects ++ [.entered value]) =
        Effect.units d effects ++ [Blank.trim value] := by
    simp [Effect.units, Effect.unit?, hvalue]
  rw [execute_of_empty s d (Blank.trim value) h.captured]
  constructor
  · rfl
  · rw [hunits, List.length_append]
    exact congrArg (· + 1) h.runs
  · simp [hunits]
  · rw [Effect.sinceCleared_entered, hunits, List.flatMap_append, ← List.append_assoc]
    simp [h.lines]

theorem Reflects.submit (value : Bytes) :
    Reflects s d (m.submit s d value) (effects ++ [.entered value]) := by
  have hemptied : Reflects s d { m with field := {} } effects := h.of_eq rfl rfl rfl rfl
  rw [Screen.submit]
  cases hturn : d.turn value with
  | skip =>
      refine hemptied.of_not_isUnit ?_
      simp [← Dialogue.turn_eq_run_iff, hturn]
  | leave =>
      refine (hemptied.of_not_isUnit ?_).of_eq rfl rfl rfl rfl
      simp [← Dialogue.turn_eq_run_iff, hturn]
  | run =>
      exact (hemptied.execute (Dialogue.turn_eq_run_iff.mp hturn)).of_eq rfl rfl rfl rfl

theorem Reflects.react (happening : Happening) :
    Reflects s d (m.react s d happening) (effects ++ (happening.effect? m.field).toList) := by
  have hidle : effects ++ (none : Option Effect).toList = effects := List.append_nil effects
  rcases happening with (stroke | ⟨width, height⟩) | field
  · simp only [Screen.react, respond, effect?]
    cases hcontrol : control? stroke.name with
    | none =>
        rw [hidle]
        exact h.of_eq rfl rfl rfl rfl
    | some control =>
        cases control with
        | quit =>
            rw [hidle]
            exact h.of_eq rfl rfl rfl rfl
        | submit => exact h.submit m.field.value
        | clear => exact h.clear.of_eq rfl rfl rfl rfl
  · rw [effect?, hidle]
    exact h.of_eq rfl rfl rfl rfl
  · rw [effect?, hidle]
    exact h.of_eq rfl rfl rfl rfl

theorem Reflects.foldl_of_failed (hfailed : m.failure.isSome) (happenings : List Happening) :
    Reflects s d (happenings.foldl (undergo s d) m) effects := by
  induction happenings generalizing m with
  | nil => exact h
  | cons happening rest ih =>
      rcases happening with sent | field
      · have hsame : m.undergo s d (.message sent) = m := if_pos hfailed
        rw [List.foldl_cons, hsame]
        exact ih h hfailed
      · exact ih (h.of_eq rfl rfl rfl rfl) hfailed

end Reflects

section Steps

variable {s d} {m : Screen} {happening : Happening}

private theorem field_submit (value : Bytes) :
    (m.submit s d value).field = {} ∧ (m.submit s d value).failure = m.failure := by
  rw [submit]
  cases d.turn value <;> exact ⟨rfl, rfl⟩

private theorem field_react (m : Screen) (happening : Happening) :
    (m.react s d happening).field = happening.fieldAfter m.field ∧
      (m.react s d happening).failure = m.failure := by
  rcases happening with (stroke | ⟨width, height⟩) | field
  · simp only [react, respond, fieldAfter]
    cases hcontrol : control? stroke.name with
    | none => exact ⟨rfl, rfl⟩
    | some control =>
        cases control with
        | quit => exact ⟨rfl, rfl⟩
        | clear => exact ⟨rfl, rfl⟩
        | submit => exact field_submit m.field.value
  · exact ⟨rfl, rfl⟩
  · exact ⟨rfl, rfl⟩

private theorem undergo_of_alive (halive : m.failure = none)
    (hfails : happening.fails m.field = false) :
    m.undergo s d happening = m.react s d happening := by
  rcases happening with (stroke | ⟨width, height⟩) | field
  · have hkey : m.field.fails stroke.name = false := hfails
    simp [undergo, react, update, halive, failure?, hkey]
  · simp [undergo, react, update, halive, failure?]
  · rfl

private theorem undergo_of_fails (halive : m.failure = none)
    (hfails : happening.fails m.field = true) :
    m.undergo s d happening = { m with failure := some m.field.failure } := by
  rcases happening with (stroke | ⟨width, height⟩) | field
  · have hkey : m.field.fails stroke.name = true := hfails
    simp [undergo, update, halive, failure?, hkey]
  · cases hfails
  · cases hfails

end Steps

theorem Reflects.foldl_undergo {m : Screen} {before : List Effect} (h : Reflects s d m before)
    (halive : m.failure = none) (happenings : List Happening) :
    Reflects s d (happenings.foldl (undergo s d) m)
      (before ++ effects m.field happenings) := by
  induction happenings generalizing m before with
  | nil => simpa [effects] using h
  | cons happening rest ih =>
      rw [List.foldl_cons, effects]
      cases hfails : happening.fails m.field with
      | true =>
          have hbroken : Reflects s d { m with failure := some m.field.failure } before :=
            h.of_eq rfl rfl rfl rfl
          rw [undergo_of_fails halive hfails, if_pos rfl, List.append_nil]
          exact hbroken.foldl_of_failed rfl rest
      | false =>
          obtain ⟨hfield, hfailure⟩ := field_react m happening (s := s) (d := d)
          have hrest := ih (h.react happening) (hfailure.trans halive)
          rw [undergo_of_alive halive hfails, if_neg Bool.false_ne_true]
          rwa [hfield, List.append_assoc] at hrest

/--
Whatever happens to a screen, nothing is left captured.  The runs are the
entered lines that are neither blank nor the exit command, the problems are
those of the last of them, and the lines are one block for each of them since
the screen was cleared or opened.  Nothing counts behind a key that the field
cannot take.
-/
theorem lived_blocks (happenings : List Happening) :
    ∃ (m : Screen) (past : List Effect) (run : List Bytes),
      m = lived s d happenings ∧ past = effects {} happenings ∧
      run = Effect.units d past ∧
      m.captured.writes = #[] ∧ m.tally.runs = run.length ∧
      m.problems =
        (run.getLast?.map fun line => (Run.problems s.policy line).length).getD 0 ∧
      m.lines =
        (if .cleared ∈ past then [] else (opened s d).lines)
          ++ (Effect.units d (Effect.sinceCleared past)).flatMap (block s d) := by
  have h := (reflects_opened s d).foldl_undergo s d rfl happenings
  exact ⟨_, _, _, rfl, rfl, rfl, congrArg Console.writes h.captured, h.runs, h.problems, h.lines⟩

end Screen

end Scriptlet
