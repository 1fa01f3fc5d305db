import Scriptlet.Proofs.Run.Acceptance
import Scriptlet.Proofs.Run.Safety
import Scriptlet.Proofs.Token.Lines
import Scriptlet.Proofs.Tree.Blame

/-!
# The order of the records of a run

Scanning, reading and evaluation record their problems one after the other,
each from the top of the source to its end.  Scanning and reading go through
segments and tokens in order; the operators at which statements fail are a
sublist of the tokens (`sublist_ops_run`).
-/

namespace Scriptlet

/-! ## Scanning -/

theorem Segment.line_of_record? {policy : Unterminated} {line : Nat} {segment : Segment}
    {r : Record} (h : segment.record? policy line = some r) : r.line = line := by
  unfold record? at h
  split at h
  · cases h
    rfl
  · cases policy <;> cases h
    rfl
  · cases policy <;> cases h
    rfl
  · cases h

namespace Scan

variable (policy : Unterminated) (source : Bytes)

theorem pairwise_line_records :
    (ofSource policy source).records.Pairwise fun a b => a.line ≤ b.line := by
  rw [ofSource, Segment.numbered_eq, List.pairwise_filterMap]
  refine (Segment.pairwise_numberedFrom 1 _).imp ?_
  intro a b hle r hr q hq
  rw [Segment.line_of_record? hr, Segment.line_of_record? hq]
  exact Int.ofNat_le.mpr hle

private theorem line_of_mem_records {r : Record} (h : r ∈ (ofSource policy source).records) :
    1 ≤ r.line ∧ r.line ≤ lastLine source := by
  obtain ⟨⟨line, segment⟩, hmem, hrecord⟩ := List.mem_filterMap.mp h
  rw [Segment.numbered_eq] at hmem
  have hbounds := Segment.numberedFrom_bounds hmem
  rw [Segment.flatten_segments] at hbounds
  rw [Segment.line_of_record? hrecord, lastLine]
  simp only at hbounds
  omega

theorem stop_ofSource : (Tokens.ofList (ofSource policy source).tokens).stop = stop source := by
  have hlexed : ∀ t ∈ lexed policy source, t.kind ≠ .eof :=
    fun t ht => (valued_of_mem_lexed ht).2
  rw [tokens_ofSource, Tokens.stop_ofList_append hlexed (List.cons_ne_nil _ _)]
  rfl

/-! ## Reading -/

theorem pairwise_line_misfits :
    (Program.ofTokens (ofSource policy source).tokens).misfits.Pairwise
      fun a b => a.token.line ≤ b.token.line := by
  apply Program.pairwise_line_misfits
  rw [body_ofSource, stop_ofSource, ← tokens_ofSource]
  exact pairwise_line_tokens policy source

private theorem line_of_mem_misfits {m : Misfit}
    (h : m ∈ (Program.ofTokens (ofSource policy source).tokens).misfits) :
    1 ≤ m.token.line ∧ m.token.line ≤ lastLine source := by
  have htoken := Program.token_of_mem_misfits h
  rw [body_ofSource, stop_ofSource] at htoken
  rcases htoken with hlexed | hstop
  · exact line_of_mem_lexed hlexed
  · rw [hstop]
    simp only [stop, lastLine]
    omega

end Scan

theorem Misfit.line_of_record? {m : Misfit} {r : Record} (h : m.record? = some r) :
    r.line = m.token.line := by
  rw [record?, Option.ite_none_left_eq_some] at h
  cases h.2
  rfl

theorem Program.pairwise_line_records {p : Program}
    (h : p.misfits.Pairwise fun a b => a.token.line ≤ b.token.line) :
    p.records.Pairwise fun a b => a.line ≤ b.line := by
  rw [records, List.pairwise_filterMap]
  refine h.imp ?_
  intro a b hle r hr q hq
  rwa [Misfit.line_of_record? hr, Misfit.line_of_record? hq]

/-! ## Evaluation -/

theorem Expr.operator_mem_of_eval {e : Expr} {error : RuntimeError}
    (h : e.eval = .error (.failed error)) : .operator error.op ∈ e.pieces := by
  induction e with
  | missing => cases h
  | literal value => cases h
  | grouping inner ih =>
      have hinner := ih h
      simp [pieces, hinner]
  | unary op operand ih =>
      rcases eval_unary_eq_error_iff.mp h with hoperand | ⟨v, reason, -, -, hhalt⟩
      · exact List.mem_cons_of_mem _ (ih hoperand)
      · cases hhalt
        exact List.mem_cons_self
  | binary left op right ihl ihr =>
      rw [pieces, List.mem_append, List.mem_cons]
      rcases eval_binary_eq_error_iff.mp h with
        hleft | ⟨v, -, hright | ⟨w, reason, -, -, hhalt⟩⟩
      · exact .inl (ihl hleft)
      · exact .inr (.inr (ihr hright))
      · cases hhalt
        exact .inr (.inl rfl)

namespace Grammar

private theorem Statement.op_mem {ts : List Token} {s : Stmt} (h : Statement ts s)
    (hts : ∀ t ∈ ts, t.Loaded) {error : RuntimeError} (herror : s.outcome.error = some error) :
    error.op ∈ ts := by
  apply mem_of_operator_mem (h.forall₂_pieces hts)
  have heval : s.eval = .error (.failed error) := by
    rw [Stmt.outcome] at herror
    split at herror
    · cases herror
    · rename_i heval
      cases herror
      exact heval
    · cases herror
  cases h with
  | print hkeyword value hsemicolon =>
      have hmem := Expr.operator_mem_of_eval heval
      simp [Stmt.pieces, hmem]
  | expression value hsemicolon =>
      have hmem := Expr.operator_mem_of_eval heval
      simp [Stmt.pieces, hmem]

theorem Statements.sublist_ops {ts : List Token} {stmts : List Stmt}
    (h : Statements ts stmts) (hts : ∀ t ∈ ts, t.Loaded) :
    (((stmts.map Stmt.outcome).filterMap Outcome.error).map RuntimeError.op).Sublist ts := by
  induction h with
  | nil => exact List.Sublist.refl _
  | @cons ts us s stmts first rest ih =>
      have hlater := ih fun t ht => hts t (List.mem_append_right _ ht)
      rw [List.map_cons]
      cases herror : s.outcome.error with
      | none =>
          rw [List.filterMap_cons_none herror]
          exact hlater.trans (List.sublist_append_right ts us)
      | some error =>
          rw [List.filterMap_cons_some herror, List.map_cons]
          have hop := first.op_mem (fun t ht => hts t (List.mem_append_left _ ht)) herror
          exact (List.singleton_sublist.mpr hop).append hlater

end Grammar

theorem Execution.sublist_ops_run {ts : List Token} {stmts : List Stmt} (c : Console)
    (h : Grammar.Statements ts stmts) (hts : ∀ t ∈ ts, t.Loaded)
    (hs : ∀ s ∈ stmts, s.complete = true) :
    ((run c stmts).errors.map RuntimeError.op).Sublist ts := by
  have houtcomes := outcomes_run_prefix hs c
  have herrors := houtcomes.sublist.filterMap Outcome.error
  exact (herrors.map RuntimeError.op).trans (h.sublist_ops hts)

/-! ## Runs -/

namespace Run

/-- The problems that evaluation has recorded. -/
def failures (r : Run) : Diagnostics :=
  (r.outcomes.filterMap Outcome.error).map RuntimeError.record

theorem records_eq (r : Run) :
    r.records = r.scan.records ++ r.program.records ++ r.failures := by
  rw [records, failures, outcomes]
  cases r.execution <;> rfl

theorem stage_of_mem_failures {r : Run} {x : Record} (h : x ∈ r.failures) :
    x.stage = .eval := by
  obtain ⟨error, -, rfl⟩ := List.mem_map.mp h
  rfl

section Start

variable (policy : Unterminated) (id source : Bytes) (console : Console)

theorem sublist_ops_start :
    (((start policy id .evaluation source console).outcomes.filterMap Outcome.error).map
      RuntimeError.op).Sublist (Scan.lexed policy source) := by
  cases hexecution : (start policy id .evaluation source console).execution with
  | none => simp [outcomes, hexecution]
  | some x =>
      have hevaluated : (start policy id .evaluation source console).evaluated = true := by
        rw [evaluated, hexecution]
        rfl
      have hstatements := statements_of_evaluated policy id source console hevaluated
      rw [outcomes, hexecution, execution_start_eq policy id .evaluation source console hexecution]
      apply Execution.sublist_ops_run console hstatements
      · exact fun t ht => Scan.loaded_of_mem_lexed ht
      · exact fun s hs => (Program.operable_of_mem_stmts hs).complete

private theorem pairwise_line_failures :
    (start policy id .evaluation source console).failures.Pairwise
      fun a b => a.line ≤ b.line := by
  have htokens := (List.pairwise_append.mp (Scan.pairwise_line_tokens policy source)).1
  have hops := htokens.sublist (sublist_ops_start policy id source console)
  rw [List.pairwise_map] at hops
  rw [failures, List.pairwise_map]
  exact hops

private theorem line_of_mem_failures {x : Record}
    (h : x ∈ (start policy id .evaluation source console).failures) :
    1 ≤ x.line ∧ x.line ≤ lastLine source := by
  obtain ⟨error, herror, rfl⟩ := List.mem_map.mp h
  have hop := (sublist_ops_start policy id source console).subset
    (List.mem_map_of_mem herror)
  exact Scan.line_of_mem_lexed hop

theorem line_of_mem_start {x : Record}
    (h : x ∈ (start policy id .evaluation source console).records) :
    1 ≤ x.line ∧ x.line ≤ lastLine source := by
  rw [records_eq, List.mem_append, List.mem_append] at h
  rcases h with (hscan | hparse) | hrun
  · exact Scan.line_of_mem_records policy source hscan
  · obtain ⟨m, hm, hrecord⟩ := List.mem_filterMap.mp hparse
    rw [Misfit.line_of_record? hrecord]
    exact Scan.line_of_mem_misfits policy source hm
  · exact line_of_mem_failures policy id source console hrun

theorem failures_eq_nil_or :
    (start policy id .evaluation source console).failures = [] ∨
      (start policy id .evaluation source console).scan.records = [] ∧
        (start policy id .evaluation source console).program.records = [] := by
  by_cases hevaluated : (start policy id .evaluation source console).evaluated = true
  · right
    exact List.append_eq_nil_iff.mp
      ((evaluated_start_iff policy id source console).mp hevaluated)
  · left
    have hskipped := of_not_evaluated policy id source console (Bool.eq_false_iff.mpr hevaluated)
    rw [failures, hskipped.2.1]
    rfl

/--
The records of a run are those of scanning, then those of reading, then those
of evaluation, each from the top of the source downwards and on one of its
lines.  Evaluation records nothing beside the others.
-/
theorem start_records_ordered :
    ∃ (r : Run) (scanned parsed failed : Diagnostics),
      r = start policy id .evaluation source console ∧
      (scanned = r.scan.records ∧ parsed = r.program.records ∧
        failed = (r.outcomes.filterMap Outcome.error).map RuntimeError.record) ∧
      r.records = scanned ++ parsed ++ failed ∧
      ((∀ x ∈ scanned, x.stage = .scan) ∧ (∀ x ∈ parsed, x.stage = .parse) ∧
        ∀ x ∈ failed, x.stage = .eval) ∧
      (scanned.Pairwise (fun a b => a.line ≤ b.line) ∧
        parsed.Pairwise (fun a b => a.line ≤ b.line) ∧
        failed.Pairwise fun a b => a.line ≤ b.line) ∧
      (∀ x ∈ r.records, 1 ≤ x.line ∧ x.line ≤ 1 + Bytes.countNewlines source) ∧
      (failed = [] ∨ scanned = [] ∧ parsed = []) := by
  refine ⟨_, _, _, _, rfl, ⟨rfl, rfl, rfl⟩, records_eq _, ⟨?_, ?_, ?_⟩, ⟨?_, ?_, ?_⟩, ?_, ?_⟩
  · exact fun x hx => Scan.stage_of_mem_records hx
  · exact fun x hx => Program.stage_of_mem_records hx
  · exact fun x hx => stage_of_mem_failures hx
  · exact Scan.pairwise_line_records policy source
  · exact Program.pairwise_line_records (Scan.pairwise_line_misfits policy source)
  · exact pairwise_line_failures policy id source console
  · intro x hx
    have hbounds := line_of_mem_start policy id source console hx
    simp only [lastLine] at hbounds
    omega
  · exact failures_eq_nil_or policy id source console

end Start

end Run

end Scriptlet
