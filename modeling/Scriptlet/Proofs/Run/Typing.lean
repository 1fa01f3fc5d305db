import Mathlib.Data.List.Forall2
import Scriptlet.Proofs.Run.Execution

/-!
# Kinds decide failures

Whether an operator accepts its operands depends on their kinds alone, and so
does the kind of its result.  So the kinds of the literals in a tree foretell
the kind of its value, or the operator that fails and the reason
(`Expr.fulfils_verdict`).  Trees that differ in the payloads of literals only have
values of one kind or fail at the same place (`Expr.eval_of_alike`).
-/

namespace Scriptlet

inductive ValueKind where
  | nil
  | boolean
  | number
  | text
  deriving DecidableEq, Repr

def Value.kind : Value → ValueKind
  | nil => .nil
  | boolean _ => .boolean
  | number _ => .number
  | text _ => .text

/-! ## Operators -/

namespace Operator

def unaryKind (op : Kind) (operand : ValueKind) : Except Rejection ValueKind :=
  match op, operand with
  | .bang, _ => .ok .boolean
  | .minus, .number => .ok .number
  | .minus, _ => .error .numberNeeded
  | _, _ => .error .unknownUnary

def arithmeticKind : Kind → Except Rejection ValueKind
  | .minus | .star | .slash => .ok .number
  | .greater | .greaterEqual | .less | .lessEqual => .ok .boolean
  | _ => .error .unknownBinary

def binaryKind (op : Kind) (left right : ValueKind) : Except Rejection ValueKind :=
  match op with
  | .equalEqual | .bangEqual => .ok .boolean
  | .plus =>
    match left, right with
    | .number, .number => .ok .number
    | .text, .text => .ok .text
    | _, _ => .error .numbersOrTextsNeeded
  | _ =>
    match left, right with
    | .number, .number => arithmeticKind op
    | _, _ => .error .numbersNeeded

theorem map_kind_unary (op : Kind) (v : Value) :
    (unary op v).map Value.kind = unaryKind op v.kind := by
  cases v <;> cases op <;> rfl

private theorem map_kind_arithmetic (op : Kind) (x y : Float) :
    (arithmetic op x y).map Value.kind = arithmeticKind op := by
  cases op <;> rfl

theorem map_kind_binary (op : Kind) (v w : Value) :
    (binary op v w).map Value.kind = binaryKind op v.kind w.kind := by
  unfold binary
  split
  · rfl
  · rfl
  · cases v <;> cases w <;> rfl
  · rename_i hequal hunequal hplus
    have hkind : binaryKind op v.kind w.kind =
        match v.kind, w.kind with
        | .number, .number => arithmeticKind op
        | _, _ => .error .numbersNeeded := by
      unfold binaryKind
      split
      · exact absurd rfl hequal
      · exact absurd rfl hunequal
      · exact absurd rfl hplus
      · rfl
    rw [hkind]
    cases v <;> cases w <;> first | exact map_kind_arithmetic op _ _ | rfl

end Operator

/-! ## Sketches -/

/-- A tree of which the literals are known by their kinds only. -/
inductive Sketch where
  | missing
  | literal (kind : ValueKind)
  | unary (op : Token) (operand : Sketch)
  | binary (left : Sketch) (op : Token) (right : Sketch)
  | grouping (inner : Sketch)

/-- Why a sketch has no kind; a rejection has the place of its operator. -/
inductive Flaw where
  | rejected (place : Nat) (op : Token) (reason : Rejection)
  | absent (what : Absence)

def Flaw.behind (n : Nat) : Flaw → Flaw
  | rejected place op reason => rejected (n + place) op reason
  | absent what => absent what

private theorem Flaw.behind_zero (flaw : Flaw) : flaw.behind 0 = flaw := by
  cases flaw with
  | rejected place op reason => rw [behind, Nat.zero_add]
  | absent what => rfl

namespace Sketch

def size : Sketch → Nat
  | missing => 1
  | literal _ => 1
  | unary _ operand => operand.size + 1
  | binary left _ right => left.size + right.size + 1
  | grouping inner => inner.size + 1

/--
What will come of a tree with this sketch: the kind of its value, or its first
flaw.  Places are counted in the order of evaluation, from zero.
-/
def verdict : Sketch → Except Flaw ValueKind
  | missing => .error (.absent .expression)
  | literal kind => .ok kind
  | grouping inner => inner.verdict
  | unary op operand =>
    match operand.verdict with
    | .error flaw => .error flaw
    | .ok k =>
      match Operator.unaryKind op.kind k with
      | .ok result => .ok result
      | .error reason => .error (.rejected operand.size op reason)
  | binary left op right =>
    match left.verdict with
    | .error flaw => .error flaw
    | .ok k =>
      match right.verdict with
      | .error flaw => .error (flaw.behind left.size)
      | .ok l =>
        match Operator.binaryKind op.kind k l with
        | .ok result => .ok result
        | .error reason => .error (.rejected (left.size + right.size) op reason)

end Sketch

namespace Expr

def sketch : Expr → Sketch
  | missing => .missing
  | literal value => .literal value.kind
  | unary op operand => .unary op operand.sketch
  | binary left op right => .binary left.sketch op right.sketch
  | grouping inner => .grouping inner.sketch

/-- The nodes of a tree in the order of evaluation, operands first. -/
def nodes : Expr → List Expr
  | missing => [missing]
  | literal value => [literal value]
  | unary op operand => operand.nodes ++ [unary op operand]
  | binary left op right => left.nodes ++ right.nodes ++ [binary left op right]
  | grouping inner => inner.nodes ++ [grouping inner]

theorem length_nodes (e : Expr) : e.nodes.length = e.sketch.size := by
  induction e with
  | missing => rfl
  | literal value => rfl
  | unary op operand ih => simp [nodes, sketch, Sketch.size, ih]
  | binary left op right ihl ihr => simp [nodes, sketch, Sketch.size, ihl, ihr, Nat.add_assoc]
  | grouping inner ih => simp [nodes, sketch, Sketch.size, ih]

theorem ok_of_mem_nodes {e : Expr} {v : Value} (h : e.eval = .ok v) :
    ∀ node ∈ e.nodes, ∃ w, node.eval = .ok w := by
  induction e generalizing v with
  | missing => cases h
  | literal value =>
      rw [nodes, List.forall_mem_singleton]
      exact ⟨v, h⟩
  | grouping inner ih =>
      rw [nodes, List.forall_mem_append, List.forall_mem_singleton]
      exact ⟨ih h, v, h⟩
  | unary op operand ih =>
      rw [nodes, List.forall_mem_append, List.forall_mem_singleton]
      obtain ⟨w, hoperand, -⟩ := eval_unary_eq_ok_iff.mp h
      exact ⟨ih hoperand, v, h⟩
  | binary left op right ihl ihr =>
      rw [nodes, List.forall_mem_append, List.forall_mem_append, List.forall_mem_singleton]
      obtain ⟨w, u, hleft, hright, -⟩ := eval_binary_eq_ok_iff.mp h
      exact ⟨⟨ihl hleft, ihr hright⟩, v, h⟩

/-! ## Failures -/

/-- The evaluation fails at the node with this place, the first that has no value. -/
structure FailsAt (e : Expr) (place : Nat) (error : RuntimeError) : Prop where
  whole : e.eval = .error (.failed error)
  node : e.nodes[place]? = some error.node
  self : error.node.eval = .error (.failed error)
  before : ∀ earlier ∈ e.nodes.take place, ∃ v, earlier.eval = .ok v

theorem FailsAt.root {e : Expr} {operands : List Expr} {op : Token} {reason : Rejection}
    (heval : e.eval = .error (.failed ⟨e, op, reason⟩)) (hnodes : e.nodes = operands ++ [e])
    (hoperands : ∀ node ∈ operands, ∃ v, node.eval = .ok v) :
    e.FailsAt operands.length ⟨e, op, reason⟩ := by
  refine ⟨heval, ?_, heval, ?_⟩
  · rw [hnodes, List.getElem?_concat_length]
  · rwa [hnodes, List.take_left]

/-- A failure of a part is one of the whole, if the nodes before the part have values. -/
theorem FailsAt.lift {e part : Expr} {front back : List Expr} {place : Nat}
    {error : RuntimeError} (h : part.FailsAt place error)
    (hwhole : ∀ halt, part.eval = .error halt → e.eval = .error halt)
    (hnodes : e.nodes = front ++ part.nodes ++ back)
    (hfront : ∀ node ∈ front, ∃ v, node.eval = .ok v) :
    e.FailsAt (front.length + place) error := by
  have hplace : place < part.nodes.length := (List.getElem?_eq_some_iff.mp h.node).1
  refine ⟨hwhole _ h.whole, ?_, h.self, ?_⟩
  · rw [hnodes, List.append_assoc, List.getElem?_append_right (Nat.le_add_right _ _),
      Nat.add_sub_cancel_left, List.getElem?_append_left hplace, h.node]
  · rw [hnodes, List.append_assoc, List.take_length_add_append,
      List.take_append_of_le_length hplace.le, List.forall_mem_append]
    exact ⟨hfront, h.before⟩

/-! ## Verdicts -/

/-- The evaluation of the tree comes out as the verdict says. -/
def Fulfils (e : Expr) : Except Flaw ValueKind → Prop
  | .ok kind => ∃ v, e.eval = .ok v ∧ v.kind = kind
  | .error (.rejected place op reason) => ∃ node, e.FailsAt place ⟨node, op, reason⟩
  | .error (.absent what) => e.eval = .error (.absent what)

theorem Fulfils.lift {e part : Expr} {front back : List Expr} {flaw : Flaw}
    (h : part.Fulfils (.error flaw))
    (hwhole : ∀ halt, part.eval = .error halt → e.eval = .error halt)
    (hnodes : e.nodes = front ++ part.nodes ++ back)
    (hfront : ∀ node ∈ front, ∃ v, node.eval = .ok v) :
    e.Fulfils (.error (flaw.behind front.length)) := by
  cases flaw with
  | rejected place op reason =>
      obtain ⟨node, hfails⟩ := h
      exact ⟨node, hfails.lift hwhole hnodes hfront⟩
  | absent what => exact hwhole _ h

theorem Fulfils.lift_first {e part : Expr} {back : List Expr} {flaw : Flaw}
    (h : part.Fulfils (.error flaw))
    (hwhole : ∀ halt, part.eval = .error halt → e.eval = .error halt)
    (hnodes : e.nodes = part.nodes ++ back) : e.Fulfils (.error flaw) := by
  have hlift := h.lift hwhole (show e.nodes = [] ++ part.nodes ++ back from hnodes) (by simp)
  rwa [List.length_nil, Flaw.behind_zero] at hlift

private theorem fulfils_unary (op : Token) {operand : Expr}
    (h : operand.Fulfils operand.sketch.verdict) :
    (unary op operand).Fulfils (unary op operand).sketch.verdict := by
  rw [sketch, Sketch.verdict]
  cases hverdict : operand.sketch.verdict with
  | error flaw =>
      rw [hverdict] at h
      exact h.lift_first (fun halt hhalt => by rw [eval, hhalt]) rfl
  | ok kind =>
      rw [hverdict] at h
      obtain ⟨v, hv, rfl⟩ := h
      have hkind := Operator.map_kind_unary op.kind v
      cases happly : Operator.unary op.kind v with
      | ok result =>
          rw [happly] at hkind
          simp only [← hkind, Except.map]
          exact ⟨result, by simp only [eval, hv, happly], rfl⟩
      | error reason =>
          rw [happly] at hkind
          simp only [← hkind, Except.map, ← length_nodes]
          exact ⟨_, .root (by simp only [eval, hv, happly]) rfl (ok_of_mem_nodes hv)⟩

private theorem fulfils_binary (op : Token) {left right : Expr}
    (hleft : left.Fulfils left.sketch.verdict) (hright : right.Fulfils right.sketch.verdict) :
    (binary left op right).Fulfils (binary left op right).sketch.verdict := by
  rw [sketch, Sketch.verdict]
  cases hleftVerdict : left.sketch.verdict with
  | error flaw =>
      rw [hleftVerdict] at hleft
      exact hleft.lift_first (fun halt hhalt => by rw [eval, hhalt])
        (List.append_assoc _ _ _)
  | ok kind =>
      rw [hleftVerdict] at hleft
      obtain ⟨v, hv, rfl⟩ := hleft
      cases hrightVerdict : right.sketch.verdict with
      | error flaw =>
          rw [hrightVerdict] at hright
          simp only [← length_nodes]
          refine hright.lift (fun halt hhalt => by rw [eval, hv, hhalt]) rfl ?_
          exact ok_of_mem_nodes hv
      | ok kind =>
          rw [hrightVerdict] at hright
          obtain ⟨w, hw, rfl⟩ := hright
          have hkind := Operator.map_kind_binary op.kind v w
          cases happly : Operator.binary op.kind v w with
          | ok result =>
              rw [happly] at hkind
              simp only [← hkind, Except.map]
              exact ⟨result, by simp only [eval, hv, hw, happly], rfl⟩
          | error reason =>
              rw [happly] at hkind
              simp only [← hkind, Except.map, ← length_nodes, ← List.length_append]
              refine ⟨_, .root (by simp only [eval, hv, hw, happly]) rfl ?_⟩
              exact List.forall_mem_append.mpr ⟨ok_of_mem_nodes hv, ok_of_mem_nodes hw⟩

/-- The kinds of the literals foretell the evaluation of every tree. -/
theorem fulfils_verdict (e : Expr) : e.Fulfils e.sketch.verdict := by
  induction e with
  | missing => rfl
  | literal value => exact ⟨value, rfl, rfl⟩
  | unary op operand ih => exact fulfils_unary op ih
  | binary left op right ihl ihr => exact fulfils_binary op ihl ihr
  | grouping inner ih =>
      rw [sketch, Sketch.verdict]
      cases hverdict : inner.sketch.verdict with
      | ok kind => rwa [hverdict] at ih
      | error flaw =>
          rw [hverdict] at ih
          exact ih.lift_first (fun halt hhalt => hhalt) rfl

/-! ## Trees that differ in payloads -/

/-- The trees have the same operators, and at each place a literal of the same kind. -/
inductive Alike : Expr → Expr → Prop
  | missing : Alike .missing .missing
  | literal {v w : Value} (h : v.kind = w.kind) : Alike (.literal v) (.literal w)
  | unary {op : Token} {e f : Expr} (operand : Alike e f) :
      Alike (.unary op e) (.unary op f)
  | binary {op : Token} {e f e' f' : Expr} (left : Alike e f) (right : Alike e' f') :
      Alike (.binary e op e') (.binary f op f')
  | grouping {e f : Expr} (inner : Alike e f) : Alike (.grouping e) (.grouping f)

theorem Alike.sketch_eq {e f : Expr} (h : Alike e f) : e.sketch = f.sketch := by
  induction h with
  | missing => rfl
  | literal h => rw [sketch, sketch, h]
  | unary operand ih => rw [sketch, sketch, ih]
  | binary left right ihl ihr => rw [sketch, sketch, ihl, ihr]
  | grouping inner ih => rw [sketch, sketch, ih]

theorem Alike.nodes {e f : Expr} (h : Alike e f) :
    List.Forall₂ Alike e.nodes f.nodes := by
  induction h with
  | missing => exact .cons .missing .nil
  | literal h => exact .cons (.literal h) .nil
  | unary operand ih => exact List.rel_append ih (.cons (.unary operand) .nil)
  | binary left right ihl ihr =>
      exact List.rel_append (List.rel_append ihl ihr) (.cons (.binary left right) .nil)
  | grouping inner ih => exact List.rel_append ih (.cons (.grouping inner) .nil)

private theorem Alike.of_nodes {e f node other : Expr} {place : Nat} (h : Alike e f)
    (hnode : e.nodes[place]? = some node) (hother : f.nodes[place]? = some other) :
    Alike node other := by
  obtain ⟨he, rfl⟩ := List.getElem?_eq_some_iff.mp hnode
  obtain ⟨hf, rfl⟩ := List.getElem?_eq_some_iff.mp hother
  exact h.nodes.get he hf

/--
Trees without missing nodes that differ in the payloads of literals only have
values of one kind, or both fail: at the same place, with the same operator
and for the same reason.  Which of them is the verdict on their sketch, where
the literals are known by their kinds only.
-/
theorem eval_of_alike {e f : Expr} (h : Alike e f) (hcomplete : e.complete = true) :
    ∃ s : Sketch, e.sketch = s ∧ f.sketch = s ∧
      ((∃ kind v w, s.verdict = .ok kind ∧
          (e.eval = .ok v ∧ v.kind = kind) ∧ (f.eval = .ok w ∧ w.kind = kind)) ∨
        ∃ place op reason node other, s.verdict = .error (.rejected place op reason) ∧
          e.FailsAt place ⟨node, op, reason⟩ ∧ f.FailsAt place ⟨other, op, reason⟩ ∧
          Alike node other) := by
  refine ⟨e.sketch, rfl, h.sketch_eq.symm, ?_⟩
  have he := e.fulfils_verdict
  have hf := f.fulfils_verdict
  rw [← h.sketch_eq] at hf
  cases hverdict : e.sketch.verdict with
  | ok kind =>
      rw [hverdict] at he hf
      obtain ⟨v, hv⟩ := he
      obtain ⟨w, hw⟩ := hf
      exact .inl ⟨kind, v, w, rfl, hv, hw⟩
  | error flaw =>
      rw [hverdict] at he hf
      cases flaw with
      | rejected place op reason =>
          obtain ⟨node, hnode⟩ := he
          obtain ⟨other, hother⟩ := hf
          exact .inr ⟨place, op, reason, node, other, rfl, hnode, hother,
            h.of_nodes hnode.node hother.node⟩
      | absent what => exact absurd he (eval_ne_absent hcomplete what)

/-- `!("a" - 1)` and `!("" - 2)` fail alike, at the difference. -/
theorem failsAt_not_text_minus_number :
    ∃ (not minus : Token) (node other : Expr),
      not = ⟨.bang, [0x21], 1, .none⟩ ∧ minus = ⟨.minus, [0x2d], 1, .none⟩ ∧
      (unary not (grouping (binary (literal (.text [0x61])) minus
        (literal (.number 1))))).FailsAt 2 ⟨node, minus, .numbersNeeded⟩ ∧
      (unary not (grouping (binary (literal (.text [])) minus
        (literal (.number 2))))).FailsAt 2 ⟨other, minus, .numbersNeeded⟩ := by
  -- By `rw`, so that the two numbers themselves are not compared.
  have hkind : (Value.number 1).kind = (Value.number 2).kind := by
    rw [Value.kind, Value.kind]
  have halike (not minus : Token) :
      Alike
        (unary not (grouping (binary (literal (.text [0x61])) minus (literal (.number 1)))))
        (unary not (grouping (binary (literal (.text [])) minus (literal (.number 2))))) :=
    .unary (.grouping (.binary (.literal rfl) (.literal hkind)))
  obtain ⟨s, hs, -, hsame⟩ := eval_of_alike
    (halike ⟨.bang, [0x21], 1, .none⟩ ⟨.minus, [0x2d], 1, .none⟩) rfl
  have hrejected : s.verdict =
      .error (.rejected 2 ⟨.minus, [0x2d], 1, .none⟩ .numbersNeeded) := by
    rw [← hs]
    rfl
  rw [hrejected] at hsame
  rcases hsame with ⟨kind, v, w, hverdict, -⟩ |
    ⟨place, op, reason, node, other, hverdict, he, hf, -⟩
  · cases hverdict
  · cases hverdict
    exact ⟨_, _, node, other, rfl, rfl, he, hf⟩

end Expr

end Scriptlet
