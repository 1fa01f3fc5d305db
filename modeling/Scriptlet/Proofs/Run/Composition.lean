import Scriptlet.Proofs.Run.Acceptance
import Scriptlet.Proofs.Run.Shift
import Scriptlet.Proofs.Token.Newline
import Scriptlet.Proofs.Tree.Operable

/-!
# Programs one behind the other

Two programs with a newline between them run as the one and then the other.
Scanning splits at the newline, reading at the end of the last statement, and
evaluation between any two statements; on the way the second program moves
down by the lines of the first (`start_append_newline`).
-/

namespace Scriptlet

/-! ## Statements -/

namespace Grammar

theorem Statements.append {ts us : List Token} {first second : List Stmt}
    (hfirst : Statements ts first) (hsecond : Statements us second) :
    Statements (ts ++ us) (first ++ second) := by
  induction hfirst with
  | nil => exact hsecond
  | cons one rest ih =>
      rw [List.append_assoc, List.cons_append]
      exact .cons one ih

end Grammar

theorem Program.stmts_of_statements {ts : List Token} {stmts : List Stmt}
    (h : Grammar.Statements (Tokens.ofList ts).body stmts) : (ofTokens ts).stmts = stmts := by
  rw [stmts_ofTokens, Attempt.all_eq_map_parsed_iff.mpr h, List.filterMap_map]
  exact List.filterMap_some

theorem Scan.closed_of_records_eq_nil {source : Bytes}
    (h : (ofSource .error source).records = []) :
    ∀ segment ∈ Segment.segments source, segment.isOpen = false := by
  apply closed_of_records
  simp [h]

/-! ## One program -/

theorem Execution.stage_of_mem_records {x : Execution} {r : Record} (h : r ∈ x.records) :
    r.stage = .eval := by
  obtain ⟨error, -, rfl⟩ := List.mem_map.mp h
  rfl

namespace Run

open Grammar

def written (r : Run) (before : Console) : Bytes :=
  (r.console before).output .stdout before.writes.size

def stmts (policy : Unterminated) (source : Bytes) : List Stmt :=
  (Program.ofTokens (Scan.ofSource policy source).tokens).stmts

section Start

variable (policy : Unterminated) (id source : Bytes) (c : Console)

theorem staticRecords_start :
    staticRecords (start policy id .evaluation source c).scan
      (start policy id .evaluation source c).program = obstacles policy source := rfl

theorem hasStatic_start_iff :
    (start policy id .evaluation source c).records.hasStatic = false ↔
      obstacles policy source = [] := by
  rw [Diagnostics.hasStatic_eq_false, records, List.forall_mem_append, staticRecords_start,
    ← Diagnostics.hasStatic_eq_false,
    Diagnostics.hasStatic_eq_false_iff (fun _ => stage_of_mem_obstacles policy source)]
  apply and_iff_left
  intro record hrecord
  have hstage : record.stage = .eval := by
    split at hrecord
    · exact Execution.stage_of_mem_records hrecord
    · cases hrecord
  rw [hstage]
  exact ⟨Stage.noConfusion, Stage.noConfusion⟩

variable {policy source c} (hclean : obstacles policy source = [])
  (hc : c.limit .stdout = none)
include hclean hc

theorem execution_of_unlimited :
    (start policy id .evaluation source c).execution =
      some ⟨(stmts policy source).map Stmt.outcome,
        c.writeAll .stdout ((stmts policy source).filterMap Stmt.line?), .completed⟩ := by
  rw [execution_start, if_pos hclean, Execution.run_of_unlimited hc]
  · rfl
  · exact fun s hs => (Program.operable_of_mem_stmts hs).complete

theorem written_of_unlimited :
    (start policy id .evaluation source c).written c =
      ((stmts policy source).filterMap Stmt.line?).flatten := by
  rw [written, console, execution_of_unlimited id hclean hc]
  exact Console.output_writeAll (Console.takes_of_unlimited hc _)

theorem outcomes_of_unlimited :
    (start policy id .evaluation source c).outcomes =
      (stmts policy source).map Stmt.outcome := by
  rw [outcomes, execution_of_unlimited id hclean hc]

theorem records_of_unlimited :
    (start policy id .evaluation source c).records =
      ((start policy id .evaluation source c).outcomes.filterMap Outcome.error).map
        RuntimeError.record := by
  rw [records, outcomes, execution_of_unlimited id hclean hc, staticRecords_start, hclean]
  rfl

end Start

/-! ## Two programs -/

section Append

variable {a b : Bytes} (ha : obstacles .error a = []) (hb : obstacles .error b = [])
include ha hb

theorem statements_append_newline :
    Statements (Scan.lexed .error (a ++ newline :: b))
      (stmts .error a ++
        (stmts .error b).map (Stmt.shifted (Bytes.countNewlines a + 1))) := by
  have hscan := ((obstacles_eq_nil_iff .error a).mp ha).1
  have hfirst := statements_of_evaluated .error [] a {}
    ((evaluated_start_iff .error [] a {}).mpr ha)
  have hsecond := statements_of_evaluated .error [] b {}
    ((evaluated_start_iff .error [] b {}).mpr hb)
  rw [Scan.lexed_append_newline .error b (Scan.closed_of_records_eq_nil hscan)]
  exact hfirst.append (hsecond.shifted _)

private theorem obstacles_append_newline : obstacles .error (a ++ newline :: b) = [] := by
  have hscana := ((obstacles_eq_nil_iff .error a).mp ha).1
  have hscanb := ((obstacles_eq_nil_iff .error b).mp hb).1
  refine (obstacles_eq_nil_iff .error _).mpr ⟨?_, _, statements_append_newline ha hb⟩
  rw [Scan.records_append_newline .error b (Scan.closed_of_records_eq_nil hscana), hscana,
    hscanb]
  rfl

theorem stmts_append_newline :
    stmts .error (a ++ newline :: b) =
      stmts .error a ++
        (stmts .error b).map (Stmt.shifted (Bytes.countNewlines a + 1)) := by
  apply Program.stmts_of_statements
  rw [Scan.body_ofSource]
  exact statements_append_newline ha hb

end Append

/--
Two programs without static errors, with a newline between them, have no static
errors either.  If no write is refused, the output is that of the first and
then that of the second, and so are outcomes and records, with the lines of the
second counted on from those of the first.
-/
theorem start_append_newline {a b : Bytes} {ca cb c : Console} (ida idb id : Bytes)
    (ha : (start .error ida .evaluation a ca).records.hasStatic = false)
    (hb : (start .error idb .evaluation b cb).records.hasStatic = false)
    (hca : ca.limit .stdout = none) (hcb : cb.limit .stdout = none)
    (hc : c.limit .stdout = none) :
    ∃ (ra rb r : Run) (n : Nat),
      ra = start .error ida .evaluation a ca ∧
      rb = start .error idb .evaluation b cb ∧
      r = start .error id .evaluation (a ++ newline :: b) c ∧
      n = Bytes.countNewlines a + 1 ∧
      r.records.hasStatic = false ∧
      r.written c = ra.written ca ++ rb.written cb ∧
      r.outcomes = ra.outcomes ++ rb.outcomes.map (Outcome.shifted n) ∧
      r.records = ra.records ++ rb.records.map (Record.shifted n) := by
  rw [hasStatic_start_iff] at ha hb
  have hab := obstacles_append_newline ha hb
  have houtcomes : (start .error id .evaluation (a ++ newline :: b) c).outcomes =
      (start .error ida .evaluation a ca).outcomes ++
        (start .error idb .evaluation b cb).outcomes.map
          (Outcome.shifted (Bytes.countNewlines a + 1)) := by
    rw [outcomes_of_unlimited id hab hc, outcomes_of_unlimited ida ha hca,
      outcomes_of_unlimited idb hb hcb, stmts_append_newline ha hb, List.map_append,
      Stmt.map_outcome_shifted]
  refine ⟨_, _, _, _, rfl, rfl, rfl, rfl, ?_, ?_, houtcomes, ?_⟩
  · exact (hasStatic_start_iff .error id _ c).mpr hab
  · rw [written_of_unlimited id hab hc, written_of_unlimited ida ha hca,
      written_of_unlimited idb hb hcb, stmts_append_newline ha hb, List.filterMap_append,
      Stmt.filterMap_line?_shifted, List.flatten_append]
  · rw [records_of_unlimited id hab hc, records_of_unlimited ida ha hca,
      records_of_unlimited idb hb hcb, houtcomes, List.filterMap_append, List.map_append,
      Outcome.map_record_shifted]

/-- A text over two lines, and a failure that moves from the first line to the third. -/
theorem start_text_append_failure :
    ∃ r : Run,
      r = start .error [] .evaluation (utf8 "print \"a\n\";" ++ newline :: utf8 "-nil;") {} ∧
      r.written {} = utf8 "a\n\n" ∧
      r.records = [⟨.eval, 3, utf8 " at '-'", utf8 "Operand must be a number."⟩] := by
  have ha : (start .error [] .evaluation (utf8 "print \"a\n\";") {}).records.hasStatic =
      false := by decide +kernel
  have hb : (start .error [] .evaluation (utf8 "-nil;") {}).records.hasStatic = false := by
    decide +kernel
  have hunlimited : ({} : Console).limit .stdout = none := rfl
  obtain ⟨ra, rb, r, n, rfl, rfl, hr, rfl, -, hwritten, -, hrecords⟩ :=
    start_append_newline [] [] [] ha hb hunlimited hunlimited hunlimited
  refine ⟨r, hr, hwritten.trans ?_, hrecords.trans ?_⟩
  · decide +kernel
  · decide +kernel

end Run

end Scriptlet
