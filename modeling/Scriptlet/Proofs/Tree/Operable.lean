import Scriptlet.Proofs.Tree.Isolation
import Scriptlet.Run.Evaluation

/-!
# Trees that evaluation can handle

The grammar lists its operators, and evaluation has a case for each of them:
two separate tables.  A tree is operable if no child is missing and every
operator is one that evaluation knows at its place.  Whatever is read is
operable, also from a broken program (`operable_of_mem_stmts`), and an operable
tree fails for its operands only (`Expr.Operable.settled`).
-/

namespace Scriptlet

namespace Operator

def unaryKinds : List Kind := [.bang, .minus]

def binaryKinds : List Kind :=
  [.bangEqual, .equalEqual, .greater, .greaterEqual, .less, .lessEqual, .minus, .plus,
    .slash, .star]

end Operator

def Rejection.BlamesOperands (r : Rejection) : Prop :=
  r ≠ .unknownUnary ∧ r ≠ .unknownBinary

namespace Operator

private theorem blamesOperands_unary {op : Kind} (hop : op ∈ unaryKinds) {v : Value}
    {r : Rejection} (h : unary op v = .error r) : r.BlamesOperands := by
  simp only [unaryKinds, List.mem_cons, List.not_mem_nil, or_false] at hop
  rcases hop with rfl | rfl
  · cases h
  · cases v with
    | number x => cases h
    | _ =>
        cases h
        exact ⟨Rejection.noConfusion, Rejection.noConfusion⟩

private theorem arithmetic_ne_error {op : Kind} (hop : op ∈ binaryKinds)
    (hequal : op ≠ .equalEqual) (hunequal : op ≠ .bangEqual) (hplus : op ≠ .plus)
    (x y : Float) (r : Rejection) : arithmetic op x y ≠ .error r := by
  intro h
  simp only [binaryKinds, List.mem_cons, List.not_mem_nil, or_false] at hop
  rcases hop with rfl | rfl | rfl | rfl | rfl | rfl | rfl | rfl | rfl | rfl
  · exact hunequal rfl
  · exact hequal rfl
  · cases h
  · cases h
  · cases h
  · cases h
  · cases h
  · exact hplus rfl
  · cases h
  · cases h

private theorem blamesOperands_binary {op : Kind} (hop : op ∈ binaryKinds) {v w : Value}
    {r : Rejection} (h : binary op v w = .error r) : r.BlamesOperands := by
  unfold binary at h
  split at h
  · cases h
  · cases h
  · split at h
    · cases h
    · cases h
    · cases h
      exact ⟨Rejection.noConfusion, Rejection.noConfusion⟩
  · rename_i hequal hunequal hplus
    split at h
    · exact absurd h (arithmetic_ne_error hop hequal hunequal hplus _ _ r)
    · cases h
      exact ⟨Rejection.noConfusion, Rejection.noConfusion⟩

end Operator

/-! ## Expressions -/

namespace Expr

inductive Operable : Expr → Prop
  | literal (value : Value) : Operable (.literal value)
  | unary {op : Token} {operand : Expr} (hop : op.kind ∈ Operator.unaryKinds)
      (inner : Operable operand) : Operable (.unary op operand)
  | binary {op : Token} {left right : Expr} (hop : op.kind ∈ Operator.binaryKinds)
      (first : Operable left) (second : Operable right) : Operable (.binary left op right)
  | grouping {inner : Expr} (h : Operable inner) : Operable (.grouping inner)

theorem Operable.complete {e : Expr} (h : e.Operable) : e.complete = true := by
  induction h with
  | literal value => rfl
  | unary hop inner ih => exact ih
  | binary hop first second ihl ihr => rw [Expr.complete, ihl, ihr, Bool.and_self]
  | grouping h ih => exact ih

/-- A value, or a failure of an operable node that is due to its operands. -/
def Settled : Except Halt Value → Prop
  | .ok _ => True
  | .error (.failed error) => error.node.Operable ∧ error.reason.BlamesOperands
  | .error (.absent _) => False

theorem Operable.settled {e : Expr} (h : e.Operable) : Settled e.eval := by
  induction h with
  | literal value => trivial
  | @unary op operand hop inner ih =>
      rw [eval]
      cases hoperand : operand.eval with
      | error halt => rwa [hoperand] at ih
      | ok v =>
          cases happly : Operator.unary op.kind v with
          | ok result => simp only [happly, Settled]
          | error reason =>
              simp only [happly, Settled]
              exact ⟨.unary hop inner, Operator.blamesOperands_unary hop happly⟩
  | @binary op left right hop first second ihl ihr =>
      rw [eval]
      cases hleft : left.eval with
      | error halt => rwa [hleft] at ihl
      | ok v =>
          cases hright : right.eval with
          | error halt => rwa [hright] at ihr
          | ok w =>
              cases happly : Operator.binary op.kind v w with
              | ok result => simp only [happly, Settled]
              | error reason =>
                  simp only [happly, Settled]
                  exact ⟨.binary hop first second,
                    Operator.blamesOperands_binary hop happly⟩
  | grouping h ih => exact ih

end Expr

/-! ## What is read is operable -/

namespace Grammar

private theorem Tier.mem_binaryKinds {tier : Tier} {k : Kind} (h : k ∈ tier.operators) :
    k ∈ Operator.binaryKinds := by
  have hall : ∀ k ∈ tier.operators, k ∈ Operator.binaryKinds := by
    cases tier <;> decide
  exact hall k h

private theorem operable_foldl_onto {tier : Tier} {links : List Link} {e : Expr} (h : e.Operable)
    (ops : ∀ link ∈ links, link.op.kind ∈ tier.operators)
    (operands : ∀ link ∈ links, link.operand.Operable) :
    (links.foldl Link.onto e).Operable := by
  induction links generalizing e with
  | nil => exact h
  | cons link links ih =>
      rw [List.foldl_cons]
      refine ih (.binary (Tier.mem_binaryKinds (ops link (by simp))) h
        (operands link (by simp))) ?_ ?_
      · exact fun link hlink => ops link (List.mem_cons_of_mem _ hlink)
      · exact fun link hlink => operands link (List.mem_cons_of_mem _ hlink)

theorem Derives.operable {p : Phrase} {ts : List Token} {e : Expr}
    (h : Derives p ts e) : e.Operable := by
  induction h with
  | chain links first ops operands ihfirst ihoperands =>
      exact operable_foldl_onto ihfirst ops ihoperands
  | sign hop operand ih => exact .unary hop ih
  | bare primary ih => exact ih
  | group hleft inner hright ih => exact .grouping ih
  | _ => exact .literal _

end Grammar

namespace Stmt

inductive Operable : Stmt → Prop
  | print {e : Expr} (h : e.Operable) : Operable (.print e)
  | expression {e : Expr} (h : e.Operable) : Operable (.expression e)

theorem Operable.absence? {s : Stmt} (h : s.Operable) : s.absence? = none := by
  cases h with
  | print h => rw [Stmt.absence?, if_pos h.complete]
  | expression h => rw [Stmt.absence?, if_pos h.complete]

theorem Operable.complete {s : Stmt} (h : s.Operable) : s.complete = true := by
  rw [Stmt.complete, h.absence?]
  rfl

theorem Operable.settled {s : Stmt} (h : s.Operable) : Expr.Settled s.eval := by
  cases h with
  | print h => exact h.settled
  | expression h => exact h.settled

end Stmt

theorem Grammar.Statement.operable {ts : List Token} {s : Stmt} (h : Statement ts s) :
    s.Operable := by
  cases h with
  | print hkeyword value hsemicolon => exact .print value.operable
  | expression value hsemicolon => exact .expression value.operable

theorem Program.operable_of_mem_stmts {ts : List Token} {s : Stmt}
    (h : s ∈ (ofTokens ts).stmts) : s.Operable := by
  rw [stmts_ofTokens] at h
  obtain ⟨a, ha, hparsed⟩ := List.mem_filterMap.mp h
  cases a with
  | parsed s' =>
      cases hparsed
      obtain ⟨used, -, hstatement⟩ := Attempt.exists_statement_of_parsed_mem ha
      exact hstatement.operable
  | failed stuck => cases hparsed

end Scriptlet
