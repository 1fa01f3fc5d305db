import Mathlib.Data.List.Infix
import Scriptlet.Run.Evaluation

/-!
# Executing statements

A statement has one outcome and prints at most one line, whatever is executed
before or after it.  An execution is the outcomes of its statements in order,
up to the first refused line (`outcomes_run_prefix`).  Statements whose lines the
console has room for are executed one after the other (`run_append`).
-/

namespace Scriptlet

/-! ## One statement -/

namespace Expr

section Inversion

variable {op : Token} {operand left right : Expr}

theorem eval_unary_eq_ok_iff {v : Value} :
    (unary op operand).eval = .ok v ↔
      ∃ w, operand.eval = .ok w ∧ Operator.unary op.kind w = .ok v := by
  rw [eval]
  cases operand.eval with
  | error halt => simp
  | ok w => cases happly : Operator.unary op.kind w <;> simp [happly]

theorem eval_unary_eq_error_iff {halt : Halt} :
    (unary op operand).eval = .error halt ↔
      operand.eval = .error halt ∨
        ∃ v reason, operand.eval = .ok v ∧ Operator.unary op.kind v = .error reason ∧
          halt = .failed ⟨unary op operand, op, reason⟩ := by
  rw [eval]
  cases operand.eval with
  | error halt => simp
  | ok w => cases happly : Operator.unary op.kind w <;> simp [happly, eq_comm]

theorem eval_binary_eq_ok_iff {v : Value} :
    (binary left op right).eval = .ok v ↔
      ∃ w u, left.eval = .ok w ∧ right.eval = .ok u ∧ Operator.binary op.kind w u = .ok v := by
  rw [eval]
  cases left.eval with
  | error halt => simp
  | ok w =>
      cases right.eval with
      | error halt => simp
      | ok u => cases happly : Operator.binary op.kind w u <;> simp [happly]

theorem eval_binary_eq_error_iff {halt : Halt} :
    (binary left op right).eval = .error halt ↔
      left.eval = .error halt ∨
        ∃ v, left.eval = .ok v ∧
          (right.eval = .error halt ∨
            ∃ w reason, right.eval = .ok w ∧ Operator.binary op.kind v w = .error reason ∧
              halt = .failed ⟨binary left op right, op, reason⟩) := by
  rw [eval]
  cases left.eval with
  | error halt => simp
  | ok w =>
      cases right.eval with
      | error halt => simp
      | ok u => cases happly : Operator.binary op.kind w u <;> simp [happly, eq_comm]

end Inversion

theorem eval_ne_absent {e : Expr} (h : e.complete = true) (what : Absence) :
    e.eval ≠ .error (.absent what) := by
  induction e with
  | missing => cases h
  | literal value => exact nofun
  | grouping inner ih => exact ih h
  | unary op operand ih =>
      intro habsent
      rcases eval_unary_eq_error_iff.mp habsent with hoperand | ⟨v, reason, -, -, hhalt⟩
      · exact ih h hoperand
      · cases hhalt
  | binary left op right ihl ihr =>
      rw [complete, Bool.and_eq_true] at h
      intro habsent
      rcases eval_binary_eq_error_iff.mp habsent with
        hleft | ⟨v, -, hright | ⟨w, reason, -, -, hhalt⟩⟩
      · exact ihl h.1 hleft
      · exact ihr h.2 hright
      · cases hhalt

end Expr

namespace Stmt

def outcome (s : Stmt) : Outcome :=
  match s.eval with
  | .ok v => ⟨s, v, none⟩
  | .error (.failed e) => ⟨s, .nil, some e⟩
  | .error (.absent _) => ⟨s, .nil, none⟩

theorem eval_ne_absent {s : Stmt} (h : s.complete = true) (what : Absence) :
    s.eval ≠ .error (.absent what) := by
  cases s with
  | missing => cases h
  | print e =>
      apply Expr.eval_ne_absent
      by_contra hincomplete
      simp [complete, absence?, hincomplete] at h
  | expression e =>
      apply Expr.eval_ne_absent
      by_contra hincomplete
      simp [complete, absence?, hincomplete] at h

end Stmt

namespace Execution

def after (o : Outcome) (x : Execution) : Execution := { x with outcomes := o :: x.outcomes }

private theorem runFrom_eq (done : List Outcome) (c : Console) (stmts : List Stmt) :
    runFrom done c stmts =
      { run c stmts with outcomes := done.reverse ++ (run c stmts).outcomes } := by
  induction stmts generalizing done c with
  | nil => simp [run, runFrom]
  | cons s rest ih =>
      rw [run, runFrom, runFrom]
      cases s.eval with
      | error halt =>
          cases halt with
          | absent what => simp
          | failed e =>
              simp only
              rw [ih, ih [_]]
              simp
      | ok v =>
          simp only
          split
          · split
            · rw [ih, ih [_]]
              simp
            · simp
          · rw [ih, ih [_]]
            simp

theorem runFrom_singleton (o : Outcome) (c : Console) (stmts : List Stmt) :
    runFrom [o] c stmts = (run c stmts).after o := by
  rw [runFrom_eq]
  rfl

theorem run_cons {s : Stmt} (hs : s.complete = true) (c : Console) (rest : List Stmt) :
    run c (s :: rest) =
      match s.line? with
      | none => (run c rest).after s.outcome
      | some line =>
          if c.accepts .stdout then (run (c.write .stdout line) rest).after s.outcome
          else ⟨[], c.write .stdout line, .refused⟩ := by
  rw [run, runFrom, Stmt.line?, Stmt.outcome]
  cases heval : s.eval with
  | error halt =>
      cases halt with
      | absent what => exact absurd heval (Stmt.eval_ne_absent hs what)
      | failed e =>
          cases s.isPrint <;> exact runFrom_singleton _ c rest
  | ok v =>
      cases s.isPrint with
      | false => exact runFrom_singleton _ c rest
      | true => simp only [if_true, runFrom_singleton, List.reverse_nil]

/-- Whatever the console refuses, statements are executed in order and none is left out. -/
theorem outcomes_run_prefix {stmts : List Stmt} (hs : ∀ s ∈ stmts, s.complete = true)
    (c : Console) : (run c stmts).outcomes <+: stmts.map Stmt.outcome := by
  induction stmts generalizing c with
  | nil => exact List.prefix_rfl
  | cons s rest ih =>
      have hrest : ∀ s ∈ rest, s.complete = true :=
        fun s h => hs s (List.mem_cons_of_mem _ h)
      rw [run_cons (hs s List.mem_cons_self), List.map_cons]
      split
      · exact (List.prefix_cons_inj _).mpr (ih hrest c)
      · split
        · exact (List.prefix_cons_inj _).mpr (ih hrest _)
        · exact List.nil_prefix

theorem ending_run_ne_absent {stmts : List Stmt} (hs : ∀ s ∈ stmts, s.complete = true)
    (c : Console) (what : Absence) : (run c stmts).ending ≠ .absent what := by
  induction stmts generalizing c with
  | nil => exact Ending.noConfusion
  | cons s rest ih =>
      have hrest : ∀ s ∈ rest, s.complete = true :=
        fun s h => hs s (List.mem_cons_of_mem _ h)
      rw [run_cons (hs s List.mem_cons_self)]
      split
      · exact ih hrest c
      · split
        · exact ih hrest _
        · exact Ending.noConfusion

end Execution

/-! ## Consoles with room -/

namespace Console

variable {c : Console} {stream : Stream}

theorem attempts_write (c : Console) (stream other : Stream) (content : Bytes) :
    (c.write other content).attempts stream =
      c.attempts stream + if other = stream then 1 else 0 := by
  simp [attempts, write, Array.countP_push]

def room (c : Console) (stream : Stream) : Option Nat :=
  (c.limit stream).map (· - c.attempts stream)

def Takes (c : Console) (stream : Stream) (n : Nat) : Prop :=
  ∀ m, c.room stream = some m → n ≤ m

theorem takes_of_unlimited (h : c.limit stream = none) (n : Nat) : c.Takes stream n := by
  intro m hm
  rw [room, h] at hm
  cases hm

theorem accepts_eq_false_iff : c.accepts stream = false ↔ c.room stream = some 0 := by
  rw [accepts, room]
  cases c.limit stream with
  | none => simp
  | some n => simp [Nat.sub_eq_zero_iff_le]

theorem room_write (content : Bytes) :
    (c.write stream content).room stream = (c.room stream).map (· - 1) := by
  rw [room, room, attempts_write, if_pos rfl, Option.map_map]
  rfl

theorem room_writeAll (lines : List Bytes) :
    (c.writeAll stream lines).room stream = (c.room stream).map (· - lines.length) := by
  induction lines generalizing c with
  | nil => simp [writeAll]
  | cons line lines ih =>
      rw [writeAll, List.foldl_cons, ← writeAll, ih, room_write, Option.map_map]
      congr 1
      funext n
      simp only [Function.comp_apply, List.length_cons]
      omega

namespace Takes

variable {n : Nat} (h : c.Takes stream (n + 1))
include h

theorem accepts : c.accepts stream = true := by
  rw [← Bool.not_eq_false, accepts_eq_false_iff]
  intro hroom
  have hle := h 0 hroom
  omega

theorem write (content : Bytes) : (c.write stream content).Takes stream n := by
  intro m hm
  rw [room_write, Option.map_eq_some_iff] at hm
  obtain ⟨l, hl, rfl⟩ := hm
  have hle := h l hl
  omega

end Takes

theorem accepts_of_unlimited (h : c.limit stream = none) : c.accepts stream = true :=
  (takes_of_unlimited h 1).accepts

private theorem writes_writeAll {lines : List Bytes} (h : c.Takes stream lines.length) :
    (c.writeAll stream lines).writes.toList =
      c.writes.toList ++ lines.map fun line => ⟨stream, line, true⟩ := by
  induction lines generalizing c with
  | nil => simp [writeAll]
  | cons line lines ih =>
      have haccepted : (c.write stream line).writes =
          c.writes.push ⟨stream, line, true⟩ := by
        rw [write, h.accepts]
      rw [writeAll, List.foldl_cons, ← writeAll, ih (h.write line), haccepted,
        Array.toList_push, List.append_assoc, List.map_cons]
      rfl

theorem output_writeAll {lines : List Bytes} (h : c.Takes stream lines.length) :
    (c.writeAll stream lines).output stream c.writes.size = lines.flatten := by
  rw [output, accepted, writes_writeAll h, ← Array.length_toList, List.drop_left]
  simp [List.filter_map, Function.comp_def, List.flatMap_map]

end Console

namespace Execution

/-- Statements are executed in front of others if the console has room for their lines. -/
theorem run_append {c : Console} {front : List Stmt} (hs : ∀ s ∈ front, s.complete = true)
    (htakes : c.Takes .stdout (front.filterMap Stmt.line?).length) (back : List Stmt) :
    run c (front ++ back) =
      { run (c.writeAll .stdout (front.filterMap Stmt.line?)) back with
        outcomes := front.map Stmt.outcome ++
          (run (c.writeAll .stdout (front.filterMap Stmt.line?)) back).outcomes } := by
  induction front generalizing c with
  | nil => rfl
  | cons s front ih =>
      have hfront : ∀ s ∈ front, s.complete = true :=
        fun s h => hs s (List.mem_cons_of_mem _ h)
      rw [List.cons_append, run_cons (hs s List.mem_cons_self)]
      cases hline : s.line? with
      | none =>
          rw [List.filterMap_cons_none hline] at htakes ⊢
          simp only [ih hfront htakes]
          rfl
      | some line =>
          rw [List.filterMap_cons_some hline, List.length_cons] at htakes
          rw [List.filterMap_cons_some hline]
          simp only [htakes.accepts, if_true, ih hfront (htakes.write line)]
          rfl

theorem run_of_takes {c : Console} {stmts : List Stmt} (hs : ∀ s ∈ stmts, s.complete = true)
    (htakes : c.Takes .stdout (stmts.filterMap Stmt.line?).length) :
    run c stmts =
      ⟨stmts.map Stmt.outcome, c.writeAll .stdout (stmts.filterMap Stmt.line?), .completed⟩ := by
  simpa [run, runFrom] using run_append hs htakes []

theorem run_of_unlimited {c : Console} (hc : c.limit .stdout = none) {stmts : List Stmt}
    (hs : ∀ s ∈ stmts, s.complete = true) :
    run c stmts =
      ⟨stmts.map Stmt.outcome, c.writeAll .stdout (stmts.filterMap Stmt.line?), .completed⟩ :=
  run_of_takes hs (Console.takes_of_unlimited hc _)

end Execution

end Scriptlet
