import Scriptlet.Proofs.Run.Acceptance
import Scriptlet.Proofs.Run.Consoles
import Scriptlet.Proofs.Run.Safety

/-!
# What a run attempts to write

Evaluation attempts the lines of its print statements up to the first refusal,
and it is completed exactly if there is none (`Execution.exists_printed`).
These attempts are the lines among the acts of a run.
-/

namespace Scriptlet

/-! ## Evaluation -/

namespace Run

@[simp] theorem filterMap_line?_stage (name : String) (events : List Event) :
    (stage name events).filterMap Act.line? = [] := by
  simp [stage, Act.line?]

private theorem filterMap_line?_outcomeActs (s : Stmt) :
    (outcomeActs s.outcome).filterMap Act.line? = s.line?.toList := by
  rw [Stmt.outcome]
  cases heval : s.eval with
  | ok v => cases hline : s.line? <;> simp [outcomeActs, hline, Act.line?]
  | error halt =>
      have hline : s.line? = none := by simp [Stmt.line?, heval]
      cases halt <;> simp [outcomeActs, interpreter, hline]

theorem filterMap_line?_after (s : Stmt) (rest : List Stmt) (x : Execution) :
    (evaluationActs (s :: rest) (x.after s.outcome)).filterMap Act.line? =
      s.line?.toList ++ (evaluationActs rest x).filterMap Act.line? := by
  rw [evaluationActs, evaluationActs, Execution.after, List.flatMap_cons, List.append_assoc,
    List.filterMap_append, filterMap_line?_outcomeActs, List.filterMap_append,
    List.filterMap_append]
  cases x.ending <;> simp [interpreter]

end Run

namespace Execution

/-- How an execution of `stmts` that starts at `c` relates to the lines it attempts. -/
structure Printed (c : Console) (stmts : List Stmt) (printed : List Write) : Prop where
  wrote : c.Wrote printed (run c stmts).console
  stdout : ∀ w ∈ printed, w.stream = .stdout
  lines : printed.map Write.content <+: stmts.filterMap Stmt.line?
  attempted : (Run.evaluationActs stmts (run c stmts)).filterMap Run.Act.line? =
    printed.map Write.content
  completed : (run c stmts).ending = .completed ↔ ∀ w ∈ printed, w.accepted = true
  outcomes : (run c stmts).ending = .completed →
    (run c stmts).outcomes = stmts.map Stmt.outcome

private theorem exists_printed {stmts : List Stmt} (hs : ∀ s ∈ stmts, s.complete = true)
    (c : Console) : ∃ printed, Printed c stmts printed := by
  induction stmts generalizing c with
  | nil =>
      refine ⟨[], .nil c, by simp, by simp, ?_, by simp [run, runFrom], by simp [run, runFrom]⟩
      simp [run, runFrom, Run.evaluationActs, Run.interpreter]
  | cons s rest ih =>
      have hrest : ∀ s ∈ rest, s.complete = true :=
        fun s h => hs s (List.mem_cons_of_mem _ h)
      have hrun := run_cons (hs s List.mem_cons_self) c rest
      cases hline : s.line? with
      | none =>
          simp only [hline] at hrun
          obtain ⟨printed, h⟩ := ih hrest c
          refine ⟨printed, ?_, h.stdout, ?_, ?_, ?_, ?_⟩
          · rw [hrun]
            exact h.wrote
          · rw [List.filterMap_cons_none hline]
            exact h.lines
          · rw [hrun, Run.filterMap_line?_after, hline, h.attempted]
            rfl
          · rw [hrun]
            exact h.completed
          · rw [hrun]
            exact fun hending => congrArg (s.outcome :: ·) (h.outcomes hending)
      | some line =>
          simp only [hline] at hrun
          by_cases haccepts : c.accepts .stdout = true
          · rw [if_pos haccepts] at hrun
            obtain ⟨printed, h⟩ := ih hrest (c.write .stdout line)
            refine ⟨⟨.stdout, line, c.accepts .stdout⟩ :: printed, ?_, ?_, ?_, ?_, ?_, ?_⟩
            · rw [hrun]
              exact .cons h.wrote
            · simpa using h.stdout
            · rw [List.filterMap_cons_some hline]
              exact (List.prefix_cons_inj _).mpr h.lines
            · rw [hrun, Run.filterMap_line?_after, hline, h.attempted]
              rfl
            · rw [hrun, List.forall_mem_cons]
              exact h.completed.trans (and_iff_right haccepts).symm
            · rw [hrun]
              exact fun hending => congrArg (s.outcome :: ·) (h.outcomes hending)
          · -- the refused line is the last attempt
            rw [if_neg haccepts] at hrun
            refine ⟨[⟨.stdout, line, c.accepts .stdout⟩], ?_, by simp, ?_, ?_, ?_, ?_⟩
            · rw [hrun]
              exact .single c .stdout line
            · rw [List.filterMap_cons_some hline]
              exact (List.prefix_cons_inj _).mpr List.nil_prefix
            · simp [hrun, Run.evaluationActs, hline, Run.Act.line?]
            · simp [hrun, haccepts]
            · simp [hrun]

private theorem fault?_run_eq_none_iff {stmts : List Stmt} (hs : ∀ s ∈ stmts, s.complete = true)
    (c : Console) : (run c stmts).fault? = none ↔ (run c stmts).ending = .completed := by
  have habsent := ending_run_ne_absent hs c
  unfold fault?
  cases hending : (run c stmts).ending with
  | completed => simp
  | refused => simp
  | absent what => exact absurd hending (habsent what)

end Execution

/-! ## Faults -/

namespace Fault

@[simp] theorem code_wrapped (own : Particulars) (cause : Fault) :
    (wrapped own cause).code = own.code := by
  simp [code, outermost?, chain]

@[simp] theorem code_wrap (f : Fault) (message : Bytes) : (f.wrap message).code = f.code := by
  unfold wrap
  split
  · rename_i hnone
    rw [code_wrapped, code, hnone]
    rfl
  · rename_i inner hsome
    rw [code_wrapped, code, hsome]
    rfl

private theorem code_update_wrap (f : Fault) (message : Bytes) {change : Particulars → Particulars}
    (h : ∀ own, (change own).code = own.code) :
    ((f.wrap message).update change).code = f.code := by
  rw [← code_wrap f message]
  unfold wrap
  split <;> simp [update, h]

end Fault

namespace Run

theorem lines_eq (r : Run) :
    r.lines = (r.execution.map fun x =>
      (evaluationActs r.program.stmts x).filterMap Act.line?).getD [] := by
  rw [lines, acts]
  cases r.execution with
  | none => cases r.depth <;> simp [engine, timed]
  | some x => cases r.depth <;> simp [engine, timed]

section Start

variable (policy : Unterminated) (id source : Bytes) (c : Console)

theorem complete_of_mem_start {s : Stmt}
    (h : s ∈ (start policy id .evaluation source c).program.stmts) : s.complete = true :=
  (operable_of_mem_start policy id .evaluation source c h).complete

/-- How a run that starts at `c` relates to the lines it attempts. -/
structure Printed (c : Console) (r : Run) (printed : List Write) : Prop where
  wrote : c.Wrote printed (r.console c)
  stdout : ∀ w ∈ printed, w.stream = .stdout
  lines : printed.map Write.content <+: r.program.stmts.filterMap Stmt.line?
  attempted : r.lines = printed.map Write.content
  faultless : r.fault? = none ↔ ∀ w ∈ printed, w.accepted = true
  outcomes : r.fault? = none → r.evaluated = true →
    r.outcomes = r.program.stmts.map Stmt.outcome

theorem exists_printed_start :
    ∃ printed, Printed c (start policy id .evaluation source c) printed := by
  cases hexecution : (start policy id .evaluation source c).execution with
  | none =>
      refine ⟨[], ?_, by simp, by simp, by simp [lines_eq, hexecution], ?_, ?_⟩
      · simpa [console, hexecution] using Console.Wrote.nil c
      · simp [fault?, hexecution]
      · simp [evaluated, hexecution]
  | some x =>
      have hs := fun s => complete_of_mem_start policy id source c (s := s)
      obtain rfl := execution_start_eq policy id .evaluation source c hexecution
      obtain ⟨printed, h⟩ := Execution.exists_printed hs c
      have hfault := Execution.fault?_run_eq_none_iff hs c
      refine ⟨printed, ?_, h.stdout, h.lines, ?_, ?_, ?_⟩
      · simpa [console, hexecution] using h.wrote
      · rw [lines_eq, hexecution]
        exact h.attempted
      · rw [fault?, hexecution, Option.bind_some, Option.map_eq_none_iff, hfault]
        exact h.completed
      · intro hnone _
        rw [fault?, hexecution, Option.bind_some, Option.map_eq_none_iff, hfault] at hnone
        rw [outcomes, hexecution]
        exact h.outcomes hnone

end Start

theorem code_of_fault? {r : Run} {f : Fault} (h : r.fault? = some f) :
    f.code = Code.inputOutput := by
  rw [fault?, Option.map_eq_some_iff] at h
  obtain ⟨inner, hinner, rfl⟩ := h
  rw [Fault.code_update_wrap]
  · obtain ⟨x, -, hx⟩ := Option.bind_eq_some_iff.mp hinner
    unfold Execution.fault? at hx
    split at hx
    · cases hx
      rfl
    · cases hx
  · exact fun own => rfl

end Run

end Scriptlet
