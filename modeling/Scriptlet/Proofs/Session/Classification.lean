import Mathlib.Tactic.TFAE
import Scriptlet.Proofs.Run.Composition
import Scriptlet.Proofs.Run.Order
import Scriptlet.Proofs.Session.Refusals

/-!
# How a run is classified

The records of a run, its fault, its exit code and whether it was evaluated
are computed by different tests.  They agree because a run records problems of
known stages only, and those of evaluation only if there are no others
(`run_classified`).
-/

namespace Scriptlet

/-! ## Records -/

namespace Diagnostics

variable {d : Diagnostics}

theorem count_pos_iff {stage : Stage} : 0 < d.count stage ↔ ∃ x ∈ d, x.stage = stage := by
  rw [count, List.countP_pos_iff]
  simp only [beq_iff_eq]

theorem hasRuntime_iff : d.hasRuntime = true ↔ ∃ x ∈ d, x.stage = .eval := by
  rw [hasRuntime, decide_eq_true_iff, count_pos_iff]

private theorem eq_nil_iff (h : ∀ x ∈ d, x.stage ≠ .unknown) :
    d = [] ↔ d.hasStatic = false ∧ d.hasRuntime = false := by
  constructor
  · rintro rfl
    exact ⟨rfl, rfl⟩
  · rintro ⟨hstatic, hruntime⟩
    rw [List.eq_nil_iff_forall_not_mem]
    intro x hx
    have hknown := h x hx
    have hearly := hasStatic_eq_false.mp hstatic x hx
    have hlate : x.stage ≠ .eval := by
      intro heval
      rw [hasRuntime_iff.mpr ⟨x, hx, heval⟩] at hruntime
      cases hruntime
    cases hstage : x.stage <;> simp_all

private theorem code_eq_lexical_iff : d.code = Code.lexical ↔ ∃ x ∈ d, x.stage = .scan := by
  rw [← count_pos_iff, code]
  split
  · simp_all
  · split <;> simp_all <;> decide

private theorem code_eq_or :
    d.code = Code.lexical ∨ d.code = Code.grammatical ∨ d.code = Code.runtime := by
  rw [code]
  split
  · exact .inl rfl
  · split
    · exact .inr (.inl rfl)
    · exact .inr (.inr rfl)

theorem code_eq_runtime_iff : d.code = Code.runtime ↔ d.hasStatic = false := by
  have hlexical : Code.lexical ≠ Code.runtime := by decide
  have hgrammatical : Code.grammatical ≠ Code.runtime := by decide
  rw [code, hasStatic, decide_eq_false_iff_not]
  split
  · simp only [hlexical, false_iff]
    omega
  · split
    · simp only [hgrammatical, false_iff]
      omega
    · simp only [true_iff]
      omega

private theorem code_static_iff :
    d.code = Code.lexical ∨ d.code = Code.grammatical ↔ d.hasStatic = true := by
  rw [← Bool.not_eq_false, ← code_eq_runtime_iff]
  rcases d.code_eq_or with h | h | h <;> rw [h] <;> decide

private theorem report_eq_nil_iff : d.report = [] ↔ d = [] := by
  constructor
  · intro h
    cases d with
    | nil => rfl
    | cons x rest =>
        have hline : utf8 "[line " ≠ [] := by decide
        cases rest <;> simp [report, Bytes.join, List.intercalate, Record.text, hline] at h
  · rintro rfl
    rfl

end Diagnostics

/-! ## Exit codes -/

namespace Exit

variable {d : Diagnostics}

private theorem ofRecords_eq_ok_iff :
    ofRecords d = 0 ↔ d.hasStatic = false ∧ d.hasRuntime = false := by
  cases hstatic : d.hasStatic <;> cases hruntime : d.hasRuntime <;>
    simp [ofRecords, hstatic, hruntime, ok, badData, failure]

theorem ofRecords_ne_inputOutput : ofRecords d ≠ 74 := by
  cases hstatic : d.hasStatic <;> cases hruntime : d.hasRuntime <;>
    simp [ofRecords, hstatic, hruntime, ok, badData, failure]

private theorem ofRecords_eq_badData_iff : ofRecords d = 65 ↔ d.hasStatic = true := by
  cases hstatic : d.hasStatic <;> cases hruntime : d.hasRuntime <;>
    simp [ofRecords, hstatic, hruntime, ok, badData, failure]

theorem ofRecords_eq_failure_iff :
    ofRecords d = 70 ↔ d.hasStatic = false ∧ d.hasRuntime = true := by
  cases hstatic : d.hasStatic <;> cases hruntime : d.hasRuntime <;>
    simp [ofRecords, hstatic, hruntime, ok, badData, failure]

end Exit

/-! ## Runs -/

namespace Run

private theorem diagnosis?_eq_none_iff {r : Run} : r.diagnosis? = none ↔ r.records = [] := by
  cases hrecords : r.records <;> simp [diagnosis?, hrecords, Diagnostics.fault?]

theorem hasErrors_eq_false_iff {r : Run} : r.hasErrors = false ↔ r.records = [] := by
  simp [hasErrors]

theorem code_diagnosis?_iff {r : Run} {k : Code} :
    r.diagnosis?.map Fault.code = some k ↔ r.records ≠ [] ∧ r.records.code = k := by
  cases hrecords : r.records with
  | nil => simp [diagnosis?, hrecords, Diagnostics.fault?]
  | cons x rest =>
      simp [diagnosis?, hrecords, Diagnostics.fault?, Fault.update, Fault.code,
        Fault.outermost?, Fault.chain, Particulars.withCode, Particulars.withDetail]

section Start

variable (policy : Unterminated) (id source : Bytes) (c : Console)

theorem stage_ne_unknown_start {x : Record}
    (h : x ∈ (start policy id .evaluation source c).records) : x.stage ≠ .unknown := by
  rw [records_eq, List.mem_append, List.mem_append] at h
  rcases h with (hscan | hparse) | hrun
  · simp [Scan.stage_of_mem_records hscan]
  · simp [Program.stage_of_mem_records hparse]
  · simp [stage_of_mem_failures hrun]

private theorem hasStatic_start_eq :
    (start policy id .evaluation source c).records.hasStatic =
      !(start policy id .evaluation source c).evaluated := by
  rw [Bool.eq_iff_iff, Bool.not_eq_true', ← Bool.not_eq_false, hasStatic_start_iff,
    ← Bool.not_eq_true, evaluated_start_iff]

private theorem hasRuntime_start_iff :
    (start policy id .evaluation source c).records.hasRuntime = true ↔
      ∃ o ∈ (start policy id .evaluation source c).outcomes, o.error ≠ none := by
  rw [Diagnostics.hasRuntime_iff]
  constructor
  · rintro ⟨x, hx, hstage⟩
    rw [records_eq, List.mem_append, List.mem_append] at hx
    rcases hx with (hscan | hparse) | hrun
    · simp [Scan.stage_of_mem_records hscan] at hstage
    · simp [Program.stage_of_mem_records hparse] at hstage
    · obtain ⟨error, herror, -⟩ := List.mem_map.mp hrun
      obtain ⟨o, ho, hsome⟩ := List.mem_filterMap.mp herror
      exact ⟨o, ho, by simp [hsome]⟩
  · rintro ⟨o, ho, herror⟩
    obtain ⟨error, hsome⟩ := Option.ne_none_iff_exists'.mp herror
    refine ⟨error.record, ?_, rfl⟩
    rw [records_eq]
    apply List.mem_append_right
    exact List.mem_map_of_mem (List.mem_filterMap.mpr ⟨o, ho, hsome⟩)

end Start

end Run

namespace Runner

/-! ## Runners -/

theorem stream_of_mem_reportWrites {s : Setup} {r : Run} {c : Console} {w : Write}
    (h : w ∈ reportWrites s r c) : w.stream = .stderr := by
  rw [reportWrites] at h
  split at h
  · cases h
  · rw [List.mem_singleton.mp h]

section Unlimited

variable {s : Setup} {source : Bytes} {t : Tally} {c : Console} {r : Run}
  {working printed logged echoed : List Write}
  (h : Attempted s source t c r working printed logged echoed)
  (hstdout : c.limit .stdout = none) (hstderr : c.limit .stderr = none)
include h hstdout hstderr

theorem Attempted.accepted {w : Write} (hw : w ∈ printed ++ reported s r c ++ echoed) :
    w.accepted = true := by
  simp only [List.mem_append] at hw
  have hwritten : w ∈ working ++ reported s r c ++ echoed := by
    simp only [List.mem_append, h.mem_working]
    exact hw.imp_left (.imp_left .inl)
  apply h.wrote.accepted_of_unlimited hwritten
  rcases hw with (hprinted | hreported) | hechoed
  · rw [h.prints.stdout w hprinted, hstdout]
  · rw [stream_of_mem_reportWrites hreported, hstderr]
  · rw [h.echoes.stdout w hechoed, hstdout]

private theorem Attempted.output_stderr_iff (hlogger : s.logger.level = .off) :
    (run s source t c).console.output .stderr c.writes.size = [] ↔ r.report = [] := by
  have hworking : ∀ w, w ∈ working ↔ w ∈ printed := fun w => by
    simp [h.mem_working, h.logged_of_off hlogger]
  rw [h.wrote.output, List.flatMap_eq_nil_iff]
  simp only [List.mem_filter, List.mem_append, hworking, beq_iff_eq]
  constructor
  · intro hempty
    by_contra hreport
    have hmem : ⟨.stderr, s.renderer.diagnostics r.report ++ [newline],
        (c.perform (s.work r)).accepts .stderr⟩ ∈ reported s r c := by
      rw [reported, reportWrites, if_neg hreport]
      exact List.mem_singleton_self _
    have haccepted := h.accepted hstdout hstderr (w := ⟨.stderr, _, _⟩)
      (List.mem_append_left _ (List.mem_append_right _ hmem))
    have hcontent := hempty _ ⟨⟨.inl (.inr hmem), haccepted⟩, rfl⟩
    simp at hcontent
  · rintro hreport w ⟨⟨hw, -⟩, hstream⟩
    have hreported : reported s r c = [] := by rw [reported, reportWrites, if_pos hreport]
    rw [hreported] at hw
    have hout : w.stream = .stdout := by
      rcases hw with (hprinted | hnone) | hechoed
      · exact h.prints.stdout w hprinted
      · cases hnone
      · exact h.echoes.stdout w hechoed
    rw [hout] at hstream
    cases hstream

end Unlimited

/--
If no write is refused and nothing is logged, the fault of a run, its records,
its exit code and its report say the same: all is well; or the program was not
evaluated, for a problem of scanning or else of reading; or it was evaluated,
and a statement failed.
-/
theorem run_classified {s : Setup} {c : Console} (source : Bytes) (t : Tally)
    (hstdout : c.limit .stdout = none) (hstderr : c.limit .stderr = none)
    (hlogger : s.logger.level = .off) :
    ∃ (step : Step) (r : Run) (exit : Nat) (code : Option Code),
      step = run s source t c ∧ step.run = some r ∧ step.fault = none ∧
      r = Run.start s.policy (s.ids.run t.runs) .evaluation source c ∧
      exit = Exit.code (some r) none ∧ code = r.diagnosis?.map Fault.code ∧
      [r.diagnosis? = none, r.hasErrors = false, exit = 0,
        step.console.output .stderr c.writes.size = []].TFAE ∧
      [exit = 65, code = some (utf8 "LOX_LEXICAL") ∨ code = some (utf8 "LOX_SYNTAX"),
        r.evaluated = false].TFAE ∧
      (code = some (utf8 "LOX_LEXICAL") ↔ ∃ x ∈ r.records, x.stage = .scan) ∧
      [exit = 70, code = some (utf8 "LOX_RUNTIME"),
        r.evaluated = true ∧ ∃ o ∈ r.outcomes, o.error ≠ none].TFAE := by
  obtain ⟨r, working, printed, logged, echoed, h⟩ := exists_attempted s source t c
  have hknown : ∀ x ∈ r.records, x.stage ≠ .unknown := by
    rw [h.started]
    exact fun x hx => Run.stage_ne_unknown_start _ _ _ _ hx
  have hstatic : r.records.hasStatic = !r.evaluated := by
    rw [h.started]
    exact Run.hasStatic_start_eq _ _ _ _
  have hruntime : r.records.hasRuntime = true ↔ ∃ o ∈ r.outcomes, o.error ≠ none := by
    rw [h.started]
    exact Run.hasRuntime_start_iff _ _ _ _
  have hnil := Diagnostics.eq_nil_iff hknown
  refine ⟨run s source t c, r, _, _, rfl, ?_, ?_, h.started, rfl, rfl, ?_, ?_, ?_, ?_⟩
  · rw [h.finished, run_finish]
  · rw [h.fault_iff]
    exact fun w hw => h.accepted hstdout hstderr hw
  · tfae_have 1 ↔ 2 := by
      rw [Run.diagnosis?_eq_none_iff, Run.hasErrors_eq_false_iff]
    tfae_have 2 ↔ 3 := by
      rw [Run.hasErrors_eq_false_iff, hnil]
      exact Exit.ofRecords_eq_ok_iff.symm
    tfae_have 2 ↔ 4 := by
      rw [Run.hasErrors_eq_false_iff, h.output_stderr_iff hstdout hstderr hlogger]
      exact Diagnostics.report_eq_nil_iff.symm
    tfae_finish
  · tfae_have 1 ↔ 3 := by
      refine Exit.ofRecords_eq_badData_iff.trans ?_
      rw [hstatic, Bool.not_eq_true']
    tfae_have 2 ↔ 3 := by
      rw [Run.code_diagnosis?_iff, Run.code_diagnosis?_iff, ← and_or_left]
      refine (and_congr_right' Diagnostics.code_static_iff).trans ?_
      rw [hstatic, Bool.not_eq_true', and_iff_right_iff_imp]
      rintro hskipped hrecords
      simp [hrecords, hskipped, Diagnostics.hasStatic, Diagnostics.count] at hstatic
    tfae_finish
  · rw [Run.code_diagnosis?_iff]
    refine (and_congr_right' Diagnostics.code_eq_lexical_iff).trans ?_
    rw [and_iff_right_iff_imp]
    rintro ⟨x, hx, -⟩
    exact List.ne_nil_of_mem hx
  · tfae_have 1 ↔ 3 := by
      refine Exit.ofRecords_eq_failure_iff.trans ?_
      rw [hruntime, hstatic, Bool.not_eq_false']
    tfae_have 1 ↔ 2 := by
      rw [Run.code_diagnosis?_iff]
      refine Exit.ofRecords_eq_failure_iff.trans ?_
      refine Iff.trans ?_ (and_congr_right' Diagnostics.code_eq_runtime_iff.symm)
      rw [ne_eq, hnil]
      cases r.records.hasStatic <;> simp
    tfae_finish

/-- A program of two statements, the first of which fails. -/
theorem run_failure_classified :
    ∃ (s : Setup) (step : Step) (r : Run),
      s = { ids := ⟨[], fun _ => []⟩ } ∧ step = run s (utf8 "-nil; print true;") {} {} ∧
      step.run = some r ∧ Exit.code (some r) none = 70 ∧
      step.console.output .stderr 0 ≠ [] := by
  obtain ⟨step, r, exit, code, hstep, hrun, -, hr, rfl, -, hclean, -, -, hfailed⟩ :=
    run_classified (s := { ids := ⟨[], fun _ => []⟩ }) (c := {}) (utf8 "-nil; print true;") {}
      rfl rfl rfl
  have hexit : Exit.code (some r) none = 70 := by
    refine (hfailed.out 0 2).mpr ?_
    have hfails : r.outcomes.any (fun o => o.error.isSome) = true := by
      rw [hr]
      decide +kernel
    obtain ⟨o, ho, hsome⟩ := List.any_eq_true.mp hfails
    refine ⟨?_, o, ho, Option.isSome_iff_ne_none.mp hsome⟩
    rw [hr]
    decide +kernel
  refine ⟨_, step, r, rfl, hstep, hrun, hexit, ?_⟩
  intro hsilent
  have hok := (hclean.out 2 3).mpr hsilent
  rw [hexit] at hok
  cases hok

end Runner

end Scriptlet
