import Scriptlet.Proofs.Run.Execution
import Scriptlet.Proofs.Tree.Operable
import Scriptlet.Run.Engine

/-!
# Runs meet no unknown operator and no missing node

Every statement of a run is operable, whatever is wrong with the source.  So the
evaluation of a statement always ends in a value or in a failure that its
operands have caused (`start_safe`).
-/

namespace Scriptlet

def unknownOperatorMessages : List Bytes :=
  [utf8 "Unknown unary operator.", utf8 "Unknown binary operator."]

/-! ## Messages -/

def Scan.messages : List Bytes :=
  [utf8 "Unexpected character.", utf8 "Unterminated string.",
    utf8 "Unterminated block comment."]

theorem Scan.message_of_mem_records {policy : Unterminated} {source : Bytes} {r : Record}
    (h : r ∈ (ofSource policy source).records) : r.message ∈ messages := by
  obtain ⟨⟨line, segment⟩, -, hrecord⟩ := List.mem_filterMap.mp h
  simp only [Segment.record?] at hrecord
  split at hrecord
  · cases hrecord
    exact List.mem_cons_self
  · cases policy <;> cases hrecord
    exact List.mem_cons_of_mem _ List.mem_cons_self
  · cases policy <;> cases hrecord
    exact List.mem_cons_of_mem _ (List.mem_cons_of_mem _ List.mem_cons_self)
  · cases hrecord

theorem Scan.message_not_mem {message : Bytes} (h : message ∈ messages) :
    message ∉ unknownOperatorMessages := by
  have hall : ∀ message ∈ messages, message ∉ unknownOperatorMessages := by decide
  exact hall message h

theorem Expected.message_not_mem (expected : Expected) :
    utf8 expected.message ∉ unknownOperatorMessages := by
  cases expected <;> decide

theorem Program.message_of_mem_records {ts : List Token} {r : Record}
    (h : r ∈ (ofTokens ts).records) : r.message ∉ unknownOperatorMessages := by
  obtain ⟨m, -, hrecord⟩ := List.mem_filterMap.mp h
  unfold Misfit.record? at hrecord
  split at hrecord
  · cases hrecord
  · cases hrecord
    exact m.expected.message_not_mem

theorem Rejection.BlamesOperands.message_not_mem {r : Rejection} (h : r.BlamesOperands) :
    utf8 r.message ∉ unknownOperatorMessages := by
  cases r with
  | unknownUnary => exact absurd rfl h.1
  | unknownBinary => exact absurd rfl h.2
  | _ => decide

/-! ## Executions -/

namespace Execution

variable {stmts : List Stmt} (hs : ∀ s ∈ stmts, s.Operable) (c : Console)
include hs

theorem settled_of_mem_errors {error : RuntimeError} (h : error ∈ (run c stmts).errors) :
    error.node.Operable ∧ error.reason.BlamesOperands := by
  obtain ⟨o, ho, herror⟩ := List.mem_filterMap.mp h
  have houtcomes := outcomes_run_prefix (fun s h => (hs s h).complete) c
  obtain ⟨s, hmem, rfl⟩ := List.mem_map.mp (houtcomes.subset ho)
  have hsettled := (hs s hmem).settled
  rw [Stmt.outcome] at herror
  cases heval : s.eval with
  | ok v =>
      rw [heval] at herror
      cases herror
  | error halt =>
      rw [heval] at herror hsettled
      cases halt with
      | failed e =>
          cases herror
          exact hsettled
      | absent what => cases herror

theorem message_of_mem_records {r : Record} (h : r ∈ (run c stmts).records) :
    r.message ∉ unknownOperatorMessages := by
  obtain ⟨error, herror, rfl⟩ := List.mem_map.mp h
  exact (settled_of_mem_errors hs c herror).2.message_not_mem

end Execution

/-! ## Runs -/

namespace Run

variable (policy : Unterminated) (id : Bytes) (depth : Depth) (source : Bytes)
  (console : Console)

theorem operable_of_mem_start {s : Stmt}
    (h : s ∈ (start policy id depth source console).program.stmts) : s.Operable := by
  cases depth with
  | tokens => cases h
  | program => exact Program.operable_of_mem_stmts h
  | evaluation => exact Program.operable_of_mem_stmts h

theorem execution_start_eq {x : Execution}
    (h : (start policy id depth source console).execution = some x) :
    x = Execution.run console (start policy id depth source console).program.stmts := by
  cases depth with
  | tokens => cases h
  | program => cases h
  | evaluation =>
      simp only [start] at h ⊢
      split at h
      · cases h
      · cases h
        rfl

private theorem message_of_mem_start {r : Record}
    (h : r ∈ (start policy id depth source console).records) :
    r.message ∉ unknownOperatorMessages := by
  rw [records, List.mem_append, staticRecords, List.mem_append] at h
  rcases h with (hscan | hparse) | hrun
  · exact Scan.message_not_mem (Scan.message_of_mem_records hscan)
  · cases depth with
    | tokens => cases hparse
    | program => exact Program.message_of_mem_records hparse
    | evaluation => exact Program.message_of_mem_records hparse
  · cases hexecution : (start policy id depth source console).execution with
    | none =>
        rw [hexecution] at hrun
        cases hrun
    | some x =>
        rw [hexecution] at hrun
        rw [execution_start_eq policy id depth source console hexecution] at hrun
        exact Execution.message_of_mem_records
          (fun s hs => operable_of_mem_start policy id depth source console hs) _ hrun

/--
Whatever the source, the statements that are read have all their children and
only operators that evaluation knows.  Neither evaluation nor printing meets a
missing node, and no unknown operator is recorded.
-/
theorem start_safe :
    ∃ r : Run, r = start policy id depth source console ∧
      (∀ s ∈ r.program.stmts, s.Operable ∧ s.absence? = none ∧
        ∀ what, s.eval ≠ .error (.absent what)) ∧
      (∀ c what, (Execution.run c r.program.stmts).ending ≠ .absent what) ∧
      (∀ x, r.execution = some x →
        (∀ what, x.ending ≠ .absent what) ∧
          ∀ error ∈ x.errors, error.node.complete = true) ∧
      ∀ record ∈ r.records, record.message ∉ unknownOperatorMessages := by
  have hoperable := fun s hs =>
    operable_of_mem_start policy id depth source console (s := s) hs
  have hcomplete := fun s hs => (hoperable s hs).complete
  refine ⟨_, rfl, ?_, ?_, ?_, ?_⟩
  · intro s hs
    exact ⟨hoperable s hs, (hoperable s hs).absence?, Stmt.eval_ne_absent (hcomplete s hs)⟩
  · exact fun c what => Execution.ending_run_ne_absent hcomplete c what
  · intro x hx
    rw [execution_start_eq policy id depth source console hx]
    refine ⟨fun what => Execution.ending_run_ne_absent hcomplete console what, ?_⟩
    exact fun error herror =>
      (Execution.settled_of_mem_errors hoperable console herror).1.complete
  · exact fun record hrecord =>
      message_of_mem_start policy id depth source console hrecord

end Run

end Scriptlet
