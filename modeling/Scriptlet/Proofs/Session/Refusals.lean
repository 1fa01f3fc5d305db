import Scriptlet.Proofs.Run.Writes
import Scriptlet.Session.Runner

/-!
# Refused writes of a runner

A runner attempts the lines of the program among those of its log, the report of
its problems and, behind both, the echo of a last value.  Each of them can be refused, and the
refusal of one hides no other: a step is without fault exactly if nothing was
refused (`run_fault_iff`).
-/

namespace Scriptlet

theorem Logger.lines_of_off {l : Logger} (h : l.level = .off) (time : Moment)
    (events : List Event) : l.lines time events = [] := by
  rw [lines, List.filterMap_eq_nil_iff]
  intro event _
  simp [line?, entry?, isEnabled, Level.reaches, h]

def Run.EndsIn (r : Run) (v : Value) : Prop :=
  r.evaluated = true ∧ ∃ e, r.program.stmts.getLast? = some (.expression e) ∧ e.eval = .ok v

namespace Setup

def runLines (s : Setup) (r : Run) : List Bytes := (s.runLogger r).lines s.time (r.events {})

theorem runLines_of_off {s : Setup} (h : s.logger.level = .off) (r : Run) :
    s.runLines r = [] :=
  Logger.lines_of_off (show (s.runLogger r).level = .off from h) _ _

/-! ## Work -/

/-- The lines and the log of a run, each in order, make up its work. -/
theorem filter_work (s : Setup) (r : Run) :
    (s.work r).filter (fun entry => entry.1 == .stdout) = r.lines.map (.stdout, ·) ∧
      (s.work r).filter (fun entry => entry.1 == .stderr) = (s.runLines r).map (.stderr, ·) := by
  rw [work, Run.lines, runLines, Logger.lines, Run.events]
  induction r.acts {} with
  | nil => exact ⟨rfl, rfl⟩
  | cons act acts ih =>
      rw [List.flatMap_cons, List.filter_append, List.filter_append, ih.1, ih.2]
      cases act with
      | print line => exact ⟨rfl, rfl⟩
      | log event =>
          cases hline : (s.runLogger r).line? s.time event <;>
            simp [writes, hline, List.filterMap_cons, Run.Act.line?, Run.Act.event?]

theorem stream_of_mem_work {s : Setup} {r : Run} {entry : Stream × Bytes}
    (h : entry ∈ s.work r) : entry.1 = .stdout ∨ entry.1 = .stderr := by
  obtain ⟨act, -, hentry⟩ := List.mem_flatMap.mp h
  cases act with
  | print line =>
      rw [List.mem_singleton.mp hentry]
      exact .inl rfl
  | log event =>
      obtain ⟨line, -, rfl⟩ := List.mem_map.mp hentry
      exact .inr rfl

end Setup

namespace Runner

/-! ## The report -/

section Report

variable (s : Setup) (r : Run) (c : Console)

def reportWrites : List Write :=
  if r.report = [] then []
  else [⟨.stderr, s.renderer.diagnostics r.report ++ [newline], c.accepts .stderr⟩]

theorem wrote_report : c.Wrote (reportWrites s r c) (report s r c).1 := by
  rw [report, reportWrites]
  by_cases hreport : r.report = []
  · simpa [hreport] using Console.Wrote.nil c
  · simpa [hreport] using Console.Wrote.single c .stderr _

def reported : List Write := reportWrites s r (c.perform (s.work r))

theorem report_accepted_iff :
    (report s r c).2 = false ↔ ∀ w ∈ reportWrites s r c, w.accepted = true := by
  rw [report, reportWrites]
  by_cases hreport : r.report = []
  · simp [hreport]
  · simp [hreport]

/-- The fault that keeps a value from being echoed. -/
def earlyFault? : Option Fault :=
  r.fault?.or (if (report s r c).2 then some (refused "write diagnostics") else none)

theorem earlyFault?_eq_none_iff :
    earlyFault? s r c = none ↔
      r.fault? = none ∧ ∀ w ∈ reportWrites s r c, w.accepted = true := by
  rw [earlyFault?, Option.or_eq_none_iff, ← report_accepted_iff]
  cases (report s r c).2 <;> simp

end Report

theorem code_refused (message : String) : (refused message).code = Code.inputOutput := rfl

theorem code_of_earlyFault? {s : Setup} {r : Run} {c : Console} {f : Fault}
    (h : earlyFault? s r c = some f) : f.code = Code.inputOutput := by
  rw [earlyFault?, Option.or_eq_some_iff] at h
  rcases h with hrun | ⟨-, hreport⟩
  · exact Run.code_of_fault? hrun
  · obtain ⟨-, hrefused⟩ := Option.ite_none_right_eq_some.mp hreport
    cases hrefused
    exact code_refused _

/-! ## The echo -/

private theorem trailingValue?_eq_some_iff {r : Run} {v : Value}
    (houtcomes : r.outcomes = r.program.stmts.map Stmt.outcome)
    (hcomplete : ∀ s ∈ r.program.stmts, s.complete = true) :
    trailingValue? r = some v ↔
      ∃ e, r.program.stmts.getLast? = some (.expression e) ∧ e.eval = .ok v := by
  rw [trailingValue?, houtcomes, List.getLast?_map]
  cases hlast : r.program.stmts.getLast? with
  | none => simp
  | some last =>
      have hne := Stmt.eval_ne_absent (hcomplete last (List.mem_of_getLast? hlast))
      cases last with
      | missing => simp [Stmt.outcome, Stmt.eval]
      | print e =>
          cases heval : e.eval with
          | ok w => simp [Stmt.outcome, Stmt.eval, heval]
          | error halt => cases halt <;> simp [Stmt.outcome, Stmt.eval, heval]
      | expression e =>
          cases heval : e.eval with
          | ok w => simp [Stmt.outcome, Stmt.eval, heval]
          | error halt =>
              cases halt with
              | failed error => simp [Stmt.outcome, Stmt.eval, heval]
              | absent what => exact absurd heval (hne what)

private theorem trailingValue?_start_iff (policy : Unterminated) (id source : Bytes) (c : Console)
    (hfault : (Run.start policy id .evaluation source c).fault? = none) (v : Value) :
    trailingValue? (Run.start policy id .evaluation source c) = some v ↔
      (Run.start policy id .evaluation source c).EndsIn v := by
  obtain ⟨printed, hprinted⟩ := Run.exists_printed_start policy id source c
  cases hevaluated : (Run.start policy id .evaluation source c).evaluated with
  | true =>
      rw [trailingValue?_eq_some_iff (hprinted.outcomes hfault hevaluated)
        (fun s hs => Run.complete_of_mem_start policy id source c hs)]
      exact (and_iff_right hevaluated).symm
  | false =>
      have houtcomes := (Run.of_not_evaluated policy id source c hevaluated).2.1
      simp [trailingValue?, houtcomes, Run.EndsIn, hevaluated]

section Finish

variable (s : Setup) (r : Run) (t : Tally) (c : Console)

def finish : Step :=
  match earlyFault? s r c, (if s.echo then trailingValue? r else none) with
  | some f, _ => ⟨some r, some f, t.count r, (report s r c).1⟩
  | none, none => ⟨some r, none, t.count r, (report s r c).1⟩
  | none, some v =>
      ⟨some r, if (report s r c).1.accepts .stdout then none else some (refused "write value"),
        t.count r, (report s r c).1.write .stdout (s.renderer.echo v ++ [newline])⟩

theorem run_finish : (finish s r t c).run = some r := by
  unfold finish
  split <;> rfl

theorem code_of_fault_finish {f : Fault} (h : (finish s r t c).fault = some f) :
    f.code = Code.inputOutput := by
  unfold finish at h
  split at h
  · rename_i hearly
    cases h
    exact code_of_earlyFault? hearly
  · cases h
  · obtain ⟨-, hrefused⟩ := Option.ite_none_left_eq_some.mp h
    cases hrefused
    exact code_refused _

/-- How the writes `echoed` behind the report relate to the end of a step. -/
structure Echoed (echoed : List Write) : Prop where
  wrote : (report s r c).1.Wrote echoed (finish s r t c).console
  stdout : ∀ w ∈ echoed, w.stream = .stdout
  faultless : (finish s r t c).fault = none ↔
    earlyFault? s r c = none ∧ ∀ w ∈ echoed, w.accepted = true
  value : ∀ v, s.echo = true → earlyFault? s r c = none → trailingValue? r = some v →
    ∃ accepted, echoed = [⟨.stdout, s.renderer.echo v ++ [newline], accepted⟩]
  silent : echoed ≠ [] →
    s.echo = true ∧ earlyFault? s r c = none ∧ ∃ v, trailingValue? r = some v

private theorem exists_echoed : ∃ echoed, Echoed s r t c echoed := by
  cases hearly : earlyFault? s r c with
  | some f =>
      refine ⟨[], ?_, ?_, ?_, ?_, ?_⟩ <;> simp [finish, hearly, Console.Wrote.nil]
  | none =>
      cases hvalue : (if s.echo then trailingValue? r else none) with
      | none =>
          refine ⟨[], ?_, by simp, ?_, ?_, by simp⟩
          · simpa [finish, hearly, hvalue] using Console.Wrote.nil _
          · simp [finish, hearly, hvalue]
          · intro v hecho _ htrailing
            rw [if_pos hecho, htrailing] at hvalue
            cases hvalue
      | some v =>
          obtain ⟨hecho, htrailing⟩ := Option.ite_none_right_eq_some.mp hvalue
          refine ⟨[⟨.stdout, s.renderer.echo v ++ [newline],
            (report s r c).1.accepts .stdout⟩], ?_, by simp, ?_, ?_, ?_⟩
          · simpa [finish, hearly, hvalue] using Console.Wrote.single _ _ _
          · simp [finish, hearly, hvalue]
          · intro w _ _ hw
            rw [htrailing] at hw
            cases hw
            exact ⟨_, rfl⟩
          · exact fun _ => ⟨hecho, hearly, v, htrailing⟩

end Finish

/-! ## The whole step -/

/--
How one step of a runner relates to its run and to what it attempts: the lines and
the log while it works, and the echo behind the report.
-/
structure Attempted (s : Setup) (source : Bytes) (t : Tally) (c : Console) (r : Run)
    (working printed logged echoed : List Write) : Prop where
  started : r = Run.start s.policy (s.ids.run t.runs) .evaluation source c
  finished : run s source t c = finish s r t (c.perform (s.work r))
  works : c.Wrote working (c.perform (s.work r))
  order : working.map (fun w => (w.stream, w.content)) = s.work r
  lines : printed = working.filter fun w => w.stream == .stdout
  log : logged = working.filter fun w => w.stream == .stderr
  prints : Run.Printed c r printed
  echoes : Echoed s r t (c.perform (s.work r)) echoed

/-- The prints of a run fare beside its log as they do without it. -/
theorem exists_attempted (s : Setup) (source : Bytes) (t : Tally) (c : Console) :
    ∃ r working printed logged echoed,
      Attempted s source t c r working printed logged echoed := by
  let r := Run.start s.policy (s.ids.run t.runs) .evaluation source c
  obtain ⟨printed, hprinted⟩ :=
    Run.exists_printed_start s.policy (s.ids.run t.runs) source c
  obtain ⟨working, hworks, horder⟩ := c.exists_wrote_perform (s.work r)
  obtain ⟨echoed, hechoed⟩ := exists_echoed s r t (c.perform (s.work r))
  obtain ⟨after, hfilter⟩ := (Console.Agree.refl .stdout c).exists_wrote_filter hworks
  have hentries : printed.map (fun w => (w.stream, w.content)) =
      (working.filter fun w => w.stream == .stdout).map fun w => (w.stream, w.content) := by
    have hwork := (s.filter_work r).1
    rw [← horder, List.filter_map, hprinted.attempted, List.map_map] at hwork
    refine Eq.trans ?_ hwork.symm
    exact List.map_congr_left fun w hw => by rw [hprinted.stdout w hw]; rfl
  exact ⟨r, working, printed, _, echoed, rfl, rfl, hworks, horder,
    hprinted.wrote.unique hfilter hentries, rfl, hprinted, hechoed⟩

namespace Attempted

variable {s : Setup} {source : Bytes} {t : Tally} {c : Console} {r : Run}
  {working printed logged echoed : List Write}
  (h : Attempted s source t c r working printed logged echoed)
include h

private theorem stream_of_mem_working {w : Write} (hw : w ∈ working) :
    w.stream = .stdout ∨ w.stream = .stderr := by
  have hentry : (w.stream, w.content) ∈ s.work r := h.order ▸ List.mem_map_of_mem hw
  exact Setup.stream_of_mem_work hentry

theorem mem_working {w : Write} : w ∈ working ↔ w ∈ printed ∨ w ∈ logged := by
  rw [h.lines, h.log, List.mem_filter, List.mem_filter, ← and_or_left]
  refine (and_iff_left_of_imp fun hw => ?_).symm
  simpa using h.stream_of_mem_working hw

theorem stderr {w : Write} (hw : w ∈ logged) : w.stream = .stderr := by
  rw [h.log, List.mem_filter] at hw
  exact beq_iff_eq.mp hw.2

theorem contents_logged : logged.map Write.content = s.runLines r := by
  have hwork := (s.filter_work r).2
  rw [← h.order, List.filter_map] at hwork
  rw [h.log]
  simpa [Function.comp_def] using congrArg (List.map Prod.snd) hwork

theorem logged_of_off (hoff : s.logger.level = .off) : logged = [] := by
  have hcontents := h.contents_logged
  rwa [s.runLines_of_off hoff, List.map_eq_nil_iff] at hcontents

theorem wrote : c.Wrote (working ++ reported s r c ++ echoed) (run s source t c).console := by
  rw [h.finished]
  exact (h.works.append (wrote_report s r _)).append h.echoes.wrote

theorem earlyFault?_iff :
    earlyFault? s r (c.perform (s.work r)) = none ↔
      ∀ w ∈ printed ++ reported s r c, w.accepted = true := by
  rw [earlyFault?_eq_none_iff, h.prints.faultless]
  exact List.forall_mem_append.symm

theorem fault_iff :
    (run s source t c).fault = none ↔
      ∀ w ∈ printed ++ reported s r c ++ echoed, w.accepted = true := by
  rw [h.finished, h.echoes.faultless, h.earlyFault?_iff]
  exact List.forall_mem_append.symm

theorem endsIn_iff (hearly : earlyFault? s r (c.perform (s.work r)) = none) (v : Value) :
    trailingValue? r = some v ↔ r.EndsIn v := by
  have hfault := ((earlyFault?_eq_none_iff s r _).mp hearly).1
  rw [h.started] at hfault ⊢
  exact trailingValue?_start_iff _ _ _ _ hfault v

end Attempted

theorem exit_of_inputOutput {f : Fault} (h : f.code = Code.inputOutput) (r : Option Run) :
    Exit.code r (some f) = 74 := by
  simp [Exit.code, Exit.ofFault, h, Exit.inputOutput]

/--
A runner attempts the lines of the program and those of its log as they come up, then
the report and then the echo.  The step has no fault exactly if no line, report or echo
was refused, and the exit code of a fault is 74.  The report is attempted
whatever was refused before it; the echo is attempted exactly if it is asked
for, nothing was refused before it, and the last statement is an expression
with a value.
-/
theorem run_fault_iff (s : Setup) (source : Bytes) (t : Tally) (c : Console) :
    ∃ (step : Step) (r : Run) (working printed logged reported echoed : List Write),
      step = run s source t c ∧ step.run = some r ∧
      r = Run.start s.policy (s.ids.run t.runs) .evaluation source c ∧
      step.console.writes.toList = c.writes.toList ++ (working ++ reported ++ echoed) ∧
      (working.map (fun w => (w.stream, w.content)) = s.work r ∧
        (printed = working.filter fun w => w.stream == .stdout) ∧
        logged = working.filter fun w => w.stream == .stderr) ∧
      ((∀ w ∈ printed, w.stream = .stdout) ∧
        printed.map Write.content <+: r.program.stmts.filterMap Stmt.line?) ∧
      ((∀ w ∈ logged, w.stream = .stderr) ∧ logged.map Write.content = s.runLines r ∧
        (s.logger.level = .off → logged = [])) ∧
      (step.fault = none ↔ ∀ w ∈ printed ++ reported ++ echoed, w.accepted = true) ∧
      (∀ f, step.fault = some f → Exit.code step.run (some f) = 74) ∧
      (∃ accepted, reported =
        if r.report = [] then []
        else [⟨.stderr, s.renderer.diagnostics r.report ++ [newline], accepted⟩]) ∧
      (∀ v, s.echo = true → (∀ w ∈ printed ++ reported, w.accepted = true) → r.EndsIn v →
        ∃ accepted, echoed = [⟨.stdout, s.renderer.echo v ++ [newline], accepted⟩]) ∧
      (echoed ≠ [] →
        s.echo = true ∧ (∀ w ∈ printed ++ reported, w.accepted = true) ∧
          ∃ v, r.EndsIn v) := by
  obtain ⟨r, working, printed, logged, echoed, h⟩ := exists_attempted s source t c
  refine ⟨run s source t c, r, working, printed, logged, reported s r c, echoed, rfl, ?_,
    h.started, h.wrote.writes, ⟨h.order, h.lines, h.log⟩, ⟨h.prints.stdout, h.prints.lines⟩,
    ⟨fun w => h.stderr, h.contents_logged, h.logged_of_off⟩, h.fault_iff, ?_, ⟨_, rfl⟩, ?_, ?_⟩
  · rw [h.finished, run_finish]
  · intro f hf
    rw [h.finished] at hf
    exact exit_of_inputOutput (code_of_fault_finish s r t _ hf) _
  · intro v hecho haccepted hends
    have hearly := h.earlyFault?_iff.mpr haccepted
    exact h.echoes.value v hecho hearly ((h.endsIn_iff hearly v).mpr hends)
  · intro hne
    obtain ⟨hecho, hearly, v, htrailing⟩ := h.echoes.silent hne
    exact ⟨hecho, h.earlyFault?_iff.mp hearly, v, (h.endsIn_iff hearly v).mp htrailing⟩

end Runner

end Scriptlet
