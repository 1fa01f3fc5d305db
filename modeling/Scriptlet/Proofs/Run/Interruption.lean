import Scriptlet.Proofs.Run.Execution

/-!
# Where an execution stops

A failing statement does not stop an execution, but a refused line does.  On a
console with room for `n` lines that is the line of the statement which prints
behind `n` others (`PrintsAt`).  Everything before it happens as without a limit,
and nothing behind it is looked at (`Execution.run_interrupted`).
-/

namespace Scriptlet

namespace Stmt

def prints : Stmt → Bool
  | print e => e.eval.isOk
  | _ => false

def failure? (s : Stmt) : Option RuntimeError :=
  match s.eval with
  | .error (.failed e) => some e
  | _ => none

theorem isSome_line? (s : Stmt) : s.line?.isSome = s.prints := by
  cases s with
  | print e =>
      rw [line?, prints, eval, isPrint]
      cases e.eval <;> rfl
  | _ => rfl

private theorem error_outcome (s : Stmt) : s.outcome.error = s.failure? := by
  rw [outcome, failure?]
  cases s.eval with
  | ok v => rfl
  | error halt => cases halt <;> rfl

theorem length_lines (stmts : List Stmt) :
    (stmts.filterMap line?).length = stmts.countP prints := by
  induction stmts with
  | nil => rfl
  | cons s stmts ih =>
      have hline := s.isSome_line?
      cases h : s.line? with
      | none =>
          rw [h, Option.isSome_none] at hline
          rw [List.filterMap_cons_none h, ih, List.countP_cons_of_neg (by rw [← hline]; decide)]
      | some line =>
          rw [h, Option.isSome_some] at hline
          rw [List.filterMap_cons_some h, List.length_cons, ih, List.countP_cons_of_pos hline.symm]

end Stmt

/-- The statement with the index `k` prints, and so do `n` statements in front of it. -/
structure PrintsAt (stmts : List Stmt) (n k : Nat) : Prop where
  prints : ∃ s, stmts[k]? = some s ∧ s.prints = true
  before : (stmts.take k).countP Stmt.prints = n

private theorem exists_printsAt {stmts : List Stmt} {n : Nat} (h : n < stmts.countP Stmt.prints) :
    ∃ k, PrintsAt stmts n k := by
  induction stmts generalizing n with
  | nil => exact absurd h (Nat.not_lt_zero n)
  | cons s stmts ih =>
      cases hs : s.prints with
      | false =>
          have hs' : ¬ s.prints = true := by rw [hs]; exact Bool.false_ne_true
          rw [List.countP_cons_of_neg hs'] at h
          obtain ⟨k, hprints, hbefore⟩ := ih h
          refine ⟨k + 1, hprints, ?_⟩
          rw [List.take_succ_cons, List.countP_cons_of_neg hs', hbefore]
      | true =>
          cases n with
          | zero => exact ⟨0, ⟨s, rfl, hs⟩, rfl⟩
          | succ n =>
              rw [List.countP_cons_of_pos hs] at h
              obtain ⟨k, hprints, hbefore⟩ := ih (Nat.lt_of_succ_lt_succ h)
              refine ⟨k + 1, hprints, ?_⟩
              rw [List.take_succ_cons, List.countP_cons_of_pos hs, hbefore]

private theorem Console.output_write_of_refused {c : Console} {stream : Stream}
    (h : c.accepts stream = false) (content : Bytes) (other : Stream) (start : Nat) :
    (c.write stream content).output other start = c.output other start := by
  have hrefused : ([⟨stream, content, false⟩].drop (start - c.writes.toList.length)).filter
      Write.accepted = [] := by
    rw [List.filter_eq_nil_iff]
    intro w hw
    rw [List.mem_singleton.mp (List.mem_of_mem_drop hw)]
    exact Bool.false_ne_true
  rw [output, output, accepted, accepted, write, h, Array.toList_push, List.drop_append,
    List.filter_append, hrefused, List.append_nil]

namespace Execution

theorem records_of_outcomes {x : Execution} {stmts : List Stmt}
    (h : x.outcomes = stmts.map Stmt.outcome) :
    x.records = (stmts.filterMap Stmt.failure?).map RuntimeError.record := by
  rw [records, errors, h, List.filterMap_map]
  exact congrArg _ (List.filterMap_congr fun s _ => s.error_outcome)

section Stopped

variable {c : Console} {stmts : List Stmt} {n k : Nat}
  (hroom : c.room .stdout = some n) (hk : PrintsAt stmts n k)
include hroom hk

theorem takes_lines_take : c.Takes .stdout ((stmts.take k).filterMap Stmt.line?).length := by
  intro m hm
  rw [hroom, Option.some.injEq] at hm
  rw [Stmt.length_lines, hk.before, hm]

/-- The execution ends at the refused line, whatever statements follow. -/
theorem exists_run_take_append (hs : ∀ s ∈ stmts, s.complete = true) :
    ∃ line, (c.writeAll .stdout ((stmts.take k).filterMap Stmt.line?)).accepts .stdout = false ∧
      ∀ rest, run c (stmts.take (k + 1) ++ rest) =
        ⟨(stmts.take k).map Stmt.outcome,
          (c.writeAll .stdout ((stmts.take k).filterMap Stmt.line?)).write .stdout line,
          .refused⟩ := by
  obtain ⟨s, hget, hprints⟩ := hk.prints
  rw [← s.isSome_line?, Option.isSome_iff_exists] at hprints
  obtain ⟨line, hline⟩ := hprints
  have hrefused :
      (c.writeAll .stdout ((stmts.take k).filterMap Stmt.line?)).accepts .stdout = false := by
    rw [Console.accepts_eq_false_iff, Console.room_writeAll, hroom, Option.map_some,
      Stmt.length_lines, hk.before, Nat.sub_self]
  refine ⟨line, hrefused, fun rest => ?_⟩
  have hfront : ∀ s ∈ stmts.take k, s.complete = true := fun s h => hs s (List.mem_of_mem_take h)
  have hlast := run_cons (hs s (List.mem_of_getElem? hget))
    (c.writeAll .stdout ((stmts.take k).filterMap Stmt.line?)) rest
  simp only [hline, hrefused, Bool.false_eq_true, if_false] at hlast
  rw [List.take_add_one, hget, Option.toList_some, List.append_assoc, List.singleton_append,
    run_append hfront (takes_lines_take hroom hk), hlast, List.append_nil]

end Stopped

private theorem lines_take {stmts : List Stmt} {n k : Nat} (hk : PrintsAt stmts n k) :
    (stmts.take k).filterMap Stmt.line? = (stmts.filterMap Stmt.line?).take n := by
  conv => rhs; rw [← List.take_append_drop k stmts, List.filterMap_append]
  symm
  apply List.take_left'
  rw [Stmt.length_lines, hk.before]

private theorem takes_of_forall_not {c : Console} {stmts : List Stmt}
    (h : ¬ ∃ n k, c.room .stdout = some n ∧ PrintsAt stmts n k) :
    c.Takes .stdout (stmts.filterMap Stmt.line?).length := by
  intro n hroom
  by_contra hlt
  rw [Stmt.length_lines, Nat.not_le] at hlt
  obtain ⟨k, hk⟩ := exists_printsAt hlt
  exact h ⟨n, k, hroom, hk⟩

/--
Statements without missing nodes are executed in order and each by itself.  On a
console with room for `n` lines the execution ends at the line of the statement
that prints behind `n` others, if there is one: it fails, its outcomes and its
records are those of the statements in front, its output is the first `n` lines,
and no statement behind matters.  Otherwise it does not fail, and every statement
has its outcome, its line and its record.
-/
theorem run_interrupted {stmts : List Stmt} (hs : ∀ s ∈ stmts, s.complete = true)
    (c : Console) :
    ((¬ ∃ n k, c.room .stdout = some n ∧ PrintsAt stmts n k) →
      (run c stmts).fault? = none ∧
      (run c stmts).outcomes = stmts.map Stmt.outcome ∧
      (run c stmts).console.output .stdout c.writes.size =
        (stmts.filterMap Stmt.line?).flatten ∧
      (run c stmts).records = (stmts.filterMap Stmt.failure?).map RuntimeError.record) ∧
    ∀ n k, c.room .stdout = some n → PrintsAt stmts n k →
      (∃ f, (run c stmts).fault? = some f ∧ f.code = Code.inputOutput) ∧
      (run c stmts).outcomes = (stmts.take k).map Stmt.outcome ∧
      (run c stmts).console.output .stdout c.writes.size =
        ((stmts.filterMap Stmt.line?).take n).flatten ∧
      (run c stmts).records =
        ((stmts.take k).filterMap Stmt.failure?).map RuntimeError.record ∧
      ∀ rest, run c (stmts.take (k + 1) ++ rest) = run c stmts := by
  constructor
  · intro hnone
    have htakes := takes_of_forall_not hnone
    have hrun := run_of_takes hs htakes
    refine ⟨?_, ?_, ?_, records_of_outcomes ?_⟩
    · rw [hrun]
      rfl
    · rw [hrun]
    · rw [hrun]
      exact Console.output_writeAll htakes
    · rw [hrun]
  · intro n k hroom hk
    obtain ⟨line, hrefused, hrun⟩ := exists_run_take_append hroom hk hs
    have hstmts := hrun (stmts.drop (k + 1))
    rw [List.take_append_drop] at hstmts
    refine ⟨?_, ?_, ?_, records_of_outcomes ?_, ?_⟩
    · rw [hstmts]
      exact ⟨_, rfl, rfl⟩
    · rw [hstmts]
    · rw [hstmts, Console.output_write_of_refused hrefused,
        Console.output_writeAll (takes_lines_take hroom hk), lines_take hk]
    · rw [hstmts]
    · intro rest
      rw [hrun rest, hstmts]

/-- With room for one line, `print -nil;` fails in between and the second line is refused. -/
theorem run_print_minus_nil_print :
    ∃ (minus : Token) (stmts : List Stmt) (c : Console),
      minus = ⟨.minus, [0x2d], 1, .none⟩ ∧
      stmts = [.print (.literal (.text [0x61])), .print (.unary minus (.literal .nil)),
        .expression (.literal .nil), .print (.literal .nil), .print (.literal .nil)] ∧
      c = { limit := fun _ => some 1 } ∧ (∀ s ∈ stmts, s.complete = true) ∧
      PrintsAt stmts 1 3 ∧
      (∃ f, (run c stmts).fault? = some f ∧ f.code = Code.inputOutput) ∧
      (run c stmts).outcomes.length = 3 ∧
      (run c stmts).console.output .stdout 0 = [0x61, newline] ∧
      (run c stmts).records = [⟨.eval, 1, utf8 " at '-'", utf8 "Operand must be a number."⟩] := by
  have hs : ∀ s ∈ [Stmt.print (.literal (.text [0x61])),
      .print (.unary ⟨.minus, [0x2d], 1, .none⟩ (.literal .nil)), .expression (.literal .nil),
      .print (.literal .nil), .print (.literal .nil)], s.complete = true := by
    decide
  obtain ⟨hfault, houtcomes, houtput, hrecords, -⟩ :=
    (run_interrupted hs { limit := fun _ => some 1 }).2 1 3 rfl ⟨⟨_, rfl, rfl⟩, rfl⟩
  refine ⟨_, _, _, rfl, rfl, rfl, hs, ⟨⟨_, rfl, rfl⟩, rfl⟩, hfault, ?_, houtput, ?_⟩
  · rw [houtcomes]
    rfl
  · rw [hrecords]
    decide +kernel

end Execution

end Scriptlet
