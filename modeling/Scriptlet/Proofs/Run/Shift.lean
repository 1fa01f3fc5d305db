import Scriptlet.Proofs.Run.Execution
import Scriptlet.Proofs.Token.Lines
import Scriptlet.Proofs.Tree.Grammar

/-!
# Moving a program further down

Lines are carried along and never looked at.  If all tokens move down by some
lines, so do the trees that are built of them (`Grammar.Statements.shifted`),
and so do the failures of those trees; values and printed lines stay the same
(`Expr.eval_shifted`, `Stmt.outcome_shifted`, `Stmt.line?_shifted`).
-/

namespace Scriptlet

/-! ## Trees -/

namespace Expr

def shifted (n : Nat) : Expr → Expr
  | missing => missing
  | literal value => literal value
  | unary op operand => unary (op.shifted n) (operand.shifted n)
  | binary left op right => binary (left.shifted n) (op.shifted n) (right.shifted n)
  | grouping inner => grouping (inner.shifted n)

end Expr

namespace Stmt

def shifted (n : Nat) : Stmt → Stmt
  | missing => missing
  | print e => print (e.shifted n)
  | expression e => expression (e.shifted n)

@[simp] theorem isPrint_shifted (n : Nat) (s : Stmt) : (s.shifted n).isPrint = s.isPrint := by
  cases s <;> rfl

end Stmt

namespace Grammar

def Link.shifted (n : Nat) (link : Link) : Link :=
  ⟨link.op.shifted n, link.tokens.map (Token.shifted n), link.operand.shifted n⟩

private theorem shifted_foldl_onto (n : Nat) (e : Expr) (links : List Link) :
    (links.foldl Link.onto e).shifted n =
      (links.map (Link.shifted n)).foldl Link.onto (e.shifted n) := by
  induction links generalizing e with
  | nil => rfl
  | cons link links ih =>
      rw [List.foldl_cons, ih]
      rfl

private theorem map_flatMap_spelled (n : Nat) (links : List Link) :
    (links.flatMap Link.spelled).map (Token.shifted n) =
      (links.map (Link.shifted n)).flatMap Link.spelled := by
  rw [List.map_flatMap, List.flatMap_map]
  rfl

theorem Derives.shifted (n : Nat) {p : Phrase} {ts : List Token} {e : Expr}
    (h : Derives p ts e) : Derives p (ts.map (Token.shifted n)) (e.shifted n) := by
  induction h with
  | chain links first ops operands ihfirst ihoperands =>
      rw [List.map_append, map_flatMap_spelled, shifted_foldl_onto]
      refine .chain (links.map (Link.shifted n)) ihfirst ?_ ?_
      · intro link hlink
        obtain ⟨link, hmem, rfl⟩ := List.mem_map.mp hlink
        exact ops link hmem
      · intro link hlink
        obtain ⟨link, hmem, rfl⟩ := List.mem_map.mp hlink
        exact ihoperands link hmem
  | sign hop operand ih => exact .sign hop ih
  | bare primary ih => exact .bare ih
  | number ht => exact .number ht
  | string ht => exact .string ht
  | true ht => exact .true ht
  | false ht => exact .false ht
  | nil ht => exact .nil ht
  | group hleft inner hright ih =>
      rw [List.map_append]
      exact .group hleft ih hright

theorem Statement.shifted (n : Nat) {ts : List Token} {s : Stmt} (h : Statement ts s) :
    Statement (ts.map (Token.shifted n)) (s.shifted n) := by
  cases h with
  | print hkeyword value hsemicolon =>
      rw [List.map_append]
      exact .print hkeyword (value.shifted n) hsemicolon
  | expression value hsemicolon =>
      rw [List.map_append]
      exact .expression (value.shifted n) hsemicolon

theorem Statements.shifted (n : Nat) {ts : List Token} {stmts : List Stmt}
    (h : Statements ts stmts) :
    Statements (ts.map (Token.shifted n)) (stmts.map (Stmt.shifted n)) := by
  induction h with
  | nil => exact .nil
  | cons first rest ih =>
      rw [List.map_append]
      exact .cons (first.shifted n) ih

end Grammar

/-! ## Evaluation -/

def RuntimeError.shifted (n : Nat) (e : RuntimeError) : RuntimeError :=
  ⟨e.node.shifted n, e.op.shifted n, e.reason⟩

private theorem RuntimeError.record_shifted (n : Nat) (e : RuntimeError) :
    (e.shifted n).record = e.record.shifted n := rfl

def Halt.shifted (n : Nat) : Halt → Halt
  | failed error => failed (error.shifted n)
  | absent what => absent what

def Outcome.shifted (n : Nat) (o : Outcome) : Outcome :=
  ⟨o.stmt.shifted n, o.value, o.error.map (RuntimeError.shifted n)⟩

theorem Expr.eval_shifted (n : Nat) (e : Expr) :
    (e.shifted n).eval = e.eval.mapError (Halt.shifted n) := by
  induction e with
  | missing => rfl
  | literal value => rfl
  | grouping inner ih => exact ih
  | unary op operand ih =>
      rw [shifted, eval, eval, ih]
      cases operand.eval with
      | error halt => rfl
      | ok v =>
          simp only [Except.mapError, Token.kind_shifted]
          cases Operator.unary op.kind v <;> rfl
  | binary left op right ihl ihr =>
      rw [shifted, eval, eval, ihl, ihr]
      cases left.eval with
      | error halt => rfl
      | ok v =>
          cases right.eval with
          | error halt => rfl
          | ok w =>
              simp only [Except.mapError, Token.kind_shifted]
              cases Operator.binary op.kind v w <;> rfl

namespace Stmt

theorem eval_shifted (n : Nat) (s : Stmt) :
    (s.shifted n).eval = s.eval.mapError (Halt.shifted n) := by
  cases s with
  | missing => rfl
  | print e => exact e.eval_shifted n
  | expression e => exact e.eval_shifted n

private theorem outcome_shifted (n : Nat) (s : Stmt) :
    (s.shifted n).outcome = s.outcome.shifted n := by
  rw [outcome, outcome, eval_shifted]
  cases s.eval with
  | ok v => rfl
  | error halt => cases halt <;> rfl

private theorem line?_shifted (n : Nat) (s : Stmt) : (s.shifted n).line? = s.line? := by
  rw [line?, line?, eval_shifted, isPrint_shifted]
  cases s.isPrint <;> cases s.eval <;> rfl

/-! ## Lists of statements -/

theorem map_outcome_shifted (n : Nat) (stmts : List Stmt) :
    (stmts.map (shifted n)).map outcome = (stmts.map outcome).map (Outcome.shifted n) := by
  simp only [List.map_map, Function.comp_def, outcome_shifted]

theorem filterMap_line?_shifted (n : Nat) (stmts : List Stmt) :
    (stmts.map (shifted n)).filterMap line? = stmts.filterMap line? := by
  simp only [List.filterMap_map, Function.comp_def, line?_shifted]

end Stmt

theorem Outcome.map_record_shifted (n : Nat) (outcomes : List Outcome) :
    ((outcomes.map (shifted n)).filterMap error).map RuntimeError.record =
      ((outcomes.filterMap error).map RuntimeError.record).map (Record.shifted n) := by
  simp only [List.filterMap_map, List.map_filterMap, Function.comp_def, shifted,
    Option.map_map, RuntimeError.record_shifted]

end Scriptlet
