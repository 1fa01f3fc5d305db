import Mathlib.Order.Bounds.Basic
import Scriptlet.Proofs.Run.Typing
import Scriptlet.Proofs.Tree.Operable

/-!
# What expressions mean

The meaning of an expression is built up from those of its operands: every
operator gives a value or rejects the values of its operands, with a text that
their kinds decide.  Evaluation finds the meaning, and where there is none the
first operator, in the order of evaluation, that rejects its operands
(`Expr.eval_meaning`).
-/

namespace Scriptlet

/-! ## Values -/

namespace Value

inductive Falsy : Value → Prop
  | nil : Falsy .nil
  | no : Falsy (.boolean false)

/-- Values of one kind with equal contents, where numbers compare as numbers do. -/
inductive Same : Value → Value → Prop
  | nil : Same .nil .nil
  | boolean (b : Bool) : Same (.boolean b) (.boolean b)
  | number {x y : Float} (h : (x == y) = true) : Same (.number x) (.number y)
  | text (s : Bytes) : Same (.text s) (.text s)

theorem truthy_eq_false_iff (v : Value) : v.truthy = false ↔ v.Falsy := by
  constructor
  · intro h
    cases v with
    | nil => exact .nil
    | boolean b =>
        obtain rfl : b = false := h
        exact .no
    | _ => cases h
  · intro h
    cases h <;> rfl

theorem equal_iff (v w : Value) : v.equal w = true ↔ v.Same w := by
  constructor
  · intro h
    unfold equal at h
    split at h
    · exact .nil
    · obtain rfl := eq_of_beq h
      exact .boolean _
    · exact .number h
    · obtain rfl := eq_of_beq h
      exact .text _
    · cases h
  · intro h
    cases h with
    | nil => rfl
    | boolean b => exact beq_self_eq_true b
    | number h => exact h
    | text s => exact beq_self_eq_true s

end Value

/-! ## Operators -/

private theorem Rejection.message_injective : Function.Injective Rejection.message := by
  intro a b h
  cases a <;> cases b <;> first | rfl | exact absurd h (by decide)

namespace Operator

inductive UnaryGives : Kind → Value → Value → Prop
  | negation {v : Value} {b : Bool} (h : b = true ↔ v.Falsy) : UnaryGives .bang v (.boolean b)
  | negative (x : Float) : UnaryGives .minus (.number x) (.number (-x))

inductive UnaryRejects : Kind → ValueKind → String → Prop
  | minus {k : ValueKind} (hk : k ≠ .number) :
      UnaryRejects .minus k "Operand must be a number."
  | unknown {op : Kind} {k : ValueKind} (hop : op ∉ unaryKinds) :
      UnaryRejects op k "Unknown unary operator."

inductive BinaryGives : Kind → Value → Value → Value → Prop
  | equal {v w : Value} {b : Bool} (h : b = true ↔ v.Same w) :
      BinaryGives .equalEqual v w (.boolean b)
  | unequal {v w : Value} {b : Bool} (h : b = true ↔ ¬ v.Same w) :
      BinaryGives .bangEqual v w (.boolean b)
  | sum (x y : Float) : BinaryGives .plus (.number x) (.number y) (.number (x + y))
  | joined (s t : Bytes) : BinaryGives .plus (.text s) (.text t) (.text (s ++ t))
  | difference (x y : Float) : BinaryGives .minus (.number x) (.number y) (.number (x - y))
  | product (x y : Float) : BinaryGives .star (.number x) (.number y) (.number (x * y))
  | quotient (x y : Float) : BinaryGives .slash (.number x) (.number y) (.number (x / y))
  | greater (x y : Float) :
      BinaryGives .greater (.number x) (.number y) (.boolean (x > y))
  | greaterEqual (x y : Float) :
      BinaryGives .greaterEqual (.number x) (.number y) (.boolean (x ≥ y))
  | less (x y : Float) :
      BinaryGives .less (.number x) (.number y) (.boolean (x < y))
  | lessEqual (x y : Float) :
      BinaryGives .lessEqual (.number x) (.number y) (.boolean (x ≤ y))

def generalKinds : List Kind := [.equalEqual, .bangEqual, .plus]

inductive BinaryRejects : Kind → ValueKind → ValueKind → String → Prop
  | plus {k l : ValueKind} (hnumbers : ¬ (k = .number ∧ l = .number))
      (htexts : ¬ (k = .text ∧ l = .text)) :
      BinaryRejects .plus k l "Operands must be two numbers or two strings."
  | numbers {op : Kind} {k l : ValueKind} (hgeneral : op ∉ generalKinds)
      (hnumbers : ¬ (k = .number ∧ l = .number)) :
      BinaryRejects op k l "Operands must be numbers."
  | unknown {op : Kind} (hop : op ∉ binaryKinds) :
      BinaryRejects op .number .number "Unknown binary operator."

theorem unary_eq_ok_iff (op : Kind) (v w : Value) : unary op v = .ok w ↔ UnaryGives op v w := by
  constructor
  · intro h
    unfold unary at h
    split at h
    · cases h
      exact .negation (by rw [Bool.not_eq_true', v.truthy_eq_false_iff])
    · cases h
      exact .negative _
    · cases h
    · cases h
  · intro h
    cases h with
    | @negation v b h =>
        rw [← v.truthy_eq_false_iff, ← Bool.not_eq_true'] at h
        rw [unary, Bool.eq_iff_iff.mpr h]
    | negative x => rfl

private theorem arithmetic_gives {op : Kind} {x y : Float} {w : Value}
    (h : arithmetic op x y = .ok w) :
    BinaryGives op (.number x) (.number y) w := by
  unfold arithmetic at h
  split at h
  · cases h
    exact .difference x y
  · cases h
    exact .product x y
  · cases h
    exact .quotient x y
  · cases h
    exact .greater x y
  · cases h
    exact .greaterEqual x y
  · cases h
    exact .less x y
  · cases h
    exact .lessEqual x y
  · cases h

theorem binary_eq_ok_iff (op : Kind) (v w u : Value) :
    binary op v w = .ok u ↔ BinaryGives op v w u := by
  constructor
  · intro h
    unfold binary at h
    split at h
    · cases h
      exact .equal (v.equal_iff w)
    · cases h
      exact .unequal (by rw [Bool.not_eq_true', ← v.equal_iff w, Bool.not_eq_true])
    · split at h
      · cases h
        exact .sum _ _
      · cases h
        exact .joined _ _
      · cases h
    · split at h
      · exact arithmetic_gives h
      · cases h
  · intro h
    cases h with
    | equal h =>
        rw [← v.equal_iff w] at h
        rw [binary, Bool.eq_iff_iff.mpr h]
    | unequal h =>
        rw [← v.equal_iff w, Bool.not_eq_true, ← Bool.not_eq_true'] at h
        rw [binary, Bool.eq_iff_iff.mpr h]
    | sum x y => rfl
    | joined s t => rfl
    | difference x y => rfl
    | product x y => rfl
    | quotient x y => rfl
    | greater x y => rfl
    | greaterEqual x y => rfl
    | less x y => rfl
    | lessEqual x y => rfl

theorem unaryKind_of_not_mem {op : Kind} (hop : op ∉ unaryKinds) (k : ValueKind) :
    unaryKind op k = .error .unknownUnary := by
  unfold unaryKind
  split
  · exact absurd (by decide) hop
  · exact absurd (by decide) hop
  · exact absurd (by decide) hop
  · rfl

private theorem unaryKind_eq_error_iff (op : Kind) (k : ValueKind) (text : String) :
    (∃ reason, unaryKind op k = .error reason ∧ reason.message = text) ↔
      UnaryRejects op k text := by
  constructor
  · rintro ⟨reason, h, rfl⟩
    by_cases hop : op ∈ unaryKinds
    · rw [unaryKinds, List.mem_cons, List.mem_singleton] at hop
      rcases hop with rfl | rfl
      · cases h
      · cases k with
        | number => cases h
        | _ =>
            cases h
            exact .minus (by decide)
    · rw [unaryKind_of_not_mem hop] at h
      cases h
      exact .unknown hop
  · intro h
    cases h with
    | minus hk =>
        cases k with
        | number => exact absurd rfl hk
        | _ => exact ⟨_, rfl, rfl⟩
    | unknown hop => exact ⟨_, unaryKind_of_not_mem hop k, rfl⟩

theorem arithmeticKind_eq_error_iff {op : Kind} (hgeneral : op ∉ generalKinds)
    (reason : Rejection) :
    arithmeticKind op = .error reason ↔ op ∉ binaryKinds ∧ reason = .unknownBinary := by
  by_cases hop : op ∈ binaryKinds
  · have hknown : ∀ op ∈ binaryKinds, op ∈ generalKinds ∨ (arithmeticKind op).isOk = true := by
      decide
    have hok := (hknown op hop).resolve_left hgeneral
    cases harithmetic : arithmeticKind op with
    | ok k => simp [hop]
    | error reason =>
        rw [harithmetic] at hok
        cases hok
  · have herror : arithmeticKind op = .error .unknownBinary := by
      unfold arithmeticKind
      split
      all_goals first | rfl | exact absurd (by decide) hop
    rw [herror, Except.error.injEq]
    exact ⟨fun h => ⟨hop, h.symm⟩, fun h => h.2.symm⟩

theorem binaryKind_of_not_mem {op : Kind} (hop : op ∉ generalKinds) (k l : ValueKind) :
    binaryKind op k l =
      if k = .number ∧ l = .number then arithmeticKind op else .error .numbersNeeded := by
  unfold binaryKind
  split
  · exact absurd (by decide) hop
  · exact absurd (by decide) hop
  · exact absurd (by decide) hop
  · cases k <;> cases l <;> rfl

theorem plusKind_eq (k l : ValueKind) :
    binaryKind .plus k l =
      if k = .number ∧ l = .number then .ok .number
      else if k = .text ∧ l = .text then .ok .text
      else .error .numbersOrTextsNeeded := by
  cases k <;> cases l <;> rfl

private theorem binaryKind_eq_error_iff (op : Kind) (k l : ValueKind) (text : String) :
    (∃ reason, binaryKind op k l = .error reason ∧ reason.message = text) ↔
      BinaryRejects op k l text := by
  constructor
  · rintro ⟨reason, h, rfl⟩
    by_cases hgeneral : op ∈ generalKinds
    · simp only [generalKinds, List.mem_cons, List.not_mem_nil, or_false] at hgeneral
      rcases hgeneral with rfl | rfl | rfl
      · cases h
      · cases h
      · rw [plusKind_eq] at h
        split at h
        · cases h
        · rename_i hnumbers
          split at h
          · cases h
          · rename_i htexts
            cases h
            exact .plus hnumbers htexts
    · rw [binaryKind_of_not_mem hgeneral] at h
      split at h
      · rename_i hnumbers
        obtain ⟨rfl, rfl⟩ := hnumbers
        obtain ⟨hop, rfl⟩ := (arithmeticKind_eq_error_iff hgeneral reason).mp h
        exact .unknown hop
      · rename_i hnumbers
        cases h
        exact .numbers hgeneral hnumbers
  · intro h
    cases h with
    | plus hnumbers htexts => exact ⟨_, by rw [plusKind_eq, if_neg hnumbers, if_neg htexts], rfl⟩
    | numbers hgeneral hnumbers =>
        exact ⟨_, by rw [binaryKind_of_not_mem hgeneral, if_neg hnumbers], rfl⟩
    | unknown hop =>
        have hgeneral : op ∉ generalKinds := by
          have hknown : ∀ op ∈ generalKinds, op ∈ binaryKinds := by decide
          exact fun hmem => hop (hknown op hmem)
        refine ⟨.unknownBinary, ?_, rfl⟩
        rw [binaryKind_of_not_mem hgeneral, if_pos ⟨rfl, rfl⟩]
        exact (arithmeticKind_eq_error_iff hgeneral _).mpr ⟨hop, rfl⟩

theorem unary_eq_error_iff (op : Kind) (v : Value) (text : String) :
    (∃ reason, unary op v = .error reason ∧ reason.message = text) ↔
      UnaryRejects op v.kind text := by
  rw [← unaryKind_eq_error_iff, ← map_kind_unary]
  cases unary op v <;> simp [Except.map]

theorem binary_eq_error_iff (op : Kind) (v w : Value) (text : String) :
    (∃ reason, binary op v w = .error reason ∧ reason.message = text) ↔
      BinaryRejects op v.kind w.kind text := by
  rw [← binaryKind_eq_error_iff, ← map_kind_binary]
  cases binary op v w <;> simp [Except.map]

end Operator

/-! ## Expressions -/

namespace Expr

/-- The value of an expression, built up from those of its operands. -/
inductive Means : Expr → Value → Prop
  | literal (v : Value) : Means (.literal v) v
  | grouping {inner : Expr} {v : Value} (hinner : Means inner v) : Means (.grouping inner) v
  | unary {op : Token} {operand : Expr} {v w : Value} (hoperand : Means operand v)
      (hgives : Operator.UnaryGives op.kind v w) : Means (.unary op operand) w
  | binary {left right : Expr} {op : Token} {v w u : Value} (hleft : Means left v)
      (hright : Means right w) (hgives : Operator.BinaryGives op.kind v w u) :
      Means (.binary left op right) u

/-- The operands of the node have values, and its operator rejects them with the text. -/
inductive Rejects : Expr → Token → String → Prop
  | unary {op : Token} {operand : Expr} {v : Value} {text : String} (hoperand : Means operand v)
      (hrejects : Operator.UnaryRejects op.kind v.kind text) : Rejects (.unary op operand) op text
  | binary {left right : Expr} {op : Token} {v w : Value} {text : String} (hleft : Means left v)
      (hright : Means right w) (hrejects : Operator.BinaryRejects op.kind v.kind w.kind text) :
      Rejects (.binary left op right) op text

/-- The places, in the order of evaluation, of the nodes that reject their operands. -/
def rejections (e : Expr) : Set Nat :=
  {place | ∃ node op text, e.nodes[place]? = some node ∧ node.Rejects op text}

theorem eval_eq_ok_iff (e : Expr) (v : Value) : e.eval = .ok v ↔ e.Means v := by
  induction e generalizing v with
  | missing => exact ⟨nofun, nofun⟩
  | literal w =>
      constructor
      · intro h
        cases h
        exact .literal w
      · intro h
        cases h
        rfl
  | grouping inner ih =>
      constructor
      · exact fun h => .grouping ((ih v).mp h)
      · intro h
        cases h with
        | grouping hinner => exact (ih v).mpr hinner
  | unary op operand ih =>
      rw [eval_unary_eq_ok_iff]
      constructor
      · rintro ⟨w, hoperand, happly⟩
        exact .unary ((ih w).mp hoperand) ((Operator.unary_eq_ok_iff _ _ _).mp happly)
      · intro h
        cases h with
        | unary hoperand hgives =>
            exact ⟨_, (ih _).mpr hoperand, (Operator.unary_eq_ok_iff _ _ _).mpr hgives⟩
  | binary left op right ihl ihr =>
      rw [eval_binary_eq_ok_iff]
      constructor
      · rintro ⟨w, u, hleft, hright, happly⟩
        exact .binary ((ihl w).mp hleft) ((ihr u).mp hright)
          ((Operator.binary_eq_ok_iff _ _ _ _).mp happly)
      · intro h
        cases h with
        | binary hleft hright hgives =>
            exact ⟨_, _, (ihl _).mpr hleft, (ihr _).mpr hright,
              (Operator.binary_eq_ok_iff _ _ _ _).mpr hgives⟩

/-! ## Failures -/

theorem eval_of_rejects {node : Expr} {op : Token} {text : String} (h : node.Rejects op text) :
    ∃ reason, node.eval = .error (.failed ⟨node, op, reason⟩) ∧ reason.message = text := by
  cases h with
  | unary hoperand hrejects =>
      obtain ⟨reason, happly, rfl⟩ := (Operator.unary_eq_error_iff _ _ _).mpr hrejects
      refine ⟨reason, eval_unary_eq_error_iff.mpr (.inr ⟨_, reason, ?_, happly, rfl⟩), rfl⟩
      exact (eval_eq_ok_iff _ _).mpr hoperand
  | binary hleft hright hrejects =>
      obtain ⟨reason, happly, rfl⟩ := (Operator.binary_eq_error_iff _ _ _ _).mpr hrejects
      refine ⟨reason, eval_binary_eq_error_iff.mpr
        (.inr ⟨_, ?_, .inr ⟨_, reason, ?_, happly, rfl⟩⟩), rfl⟩
      · exact (eval_eq_ok_iff _ _).mpr hleft
      · exact (eval_eq_ok_iff _ _).mpr hright

theorem exists_failsAt {e : Expr} {error : RuntimeError}
    (h : e.eval = .error (.failed error)) : ∃ place, e.FailsAt place error := by
  have hfulfils := e.fulfils_verdict
  cases hverdict : e.sketch.verdict with
  | ok kind =>
      rw [hverdict] at hfulfils
      obtain ⟨v, hv, -⟩ := hfulfils
      rw [h] at hv
      cases hv
  | error flaw =>
      rw [hverdict] at hfulfils
      cases flaw with
      | absent what =>
          rw [Fulfils, h] at hfulfils
          cases hfulfils
      | rejected place op reason =>
          obtain ⟨node, hfails⟩ := hfulfils
          have hwhole := hfails.whole
          rw [h] at hwhole
          cases hwhole
          exact ⟨place, hfails⟩

private theorem sizeOf_le_of_mem_nodes {e node : Expr} (h : node ∈ e.nodes) :
    sizeOf node ≤ sizeOf e := by
  induction e with
  | missing => rw [List.mem_singleton.mp h]
  | literal value => rw [List.mem_singleton.mp h]
  | grouping inner ih =>
      rcases List.mem_append.mp h with hinner | hself
      · have hle := ih hinner
        simp only [grouping.sizeOf_spec]
        omega
      · rw [List.mem_singleton.mp hself]
  | unary op operand ih =>
      rcases List.mem_append.mp h with hoperand | hself
      · have hle := ih hoperand
        simp only [unary.sizeOf_spec]
        omega
      · rw [List.mem_singleton.mp hself]
  | binary left op right ihl ihr =>
      rcases List.mem_append.mp h with hoperands | hself
      · rcases List.mem_append.mp hoperands with hleft | hright
        · have hle := ihl hleft
          simp only [binary.sizeOf_spec]
          omega
        · have hle := ihr hright
          simp only [binary.sizeOf_spec]
          omega
      · rw [List.mem_singleton.mp hself]

theorem node_ne_of_eval {part e : Expr} {error : RuntimeError}
    (h : part.eval = .error (.failed error)) (hsize : sizeOf part < sizeOf e) :
    error.node ≠ e := by
  rintro rfl
  obtain ⟨place, hfails⟩ := exists_failsAt h
  have hle := sizeOf_le_of_mem_nodes (List.mem_of_getElem? hfails.node)
  omega

theorem rejects_of_eval {e : Expr} {error : RuntimeError} (h : e.eval = .error (.failed error))
    (hnode : error.node = e) : e.Rejects error.op error.reason.message := by
  cases e with
  | missing => cases h
  | literal value => cases h
  | grouping inner =>
      have hinner : inner.eval = .error (.failed error) := h
      exact absurd hnode
        (node_ne_of_eval hinner (by simp only [grouping.sizeOf_spec]; omega))
  | unary op operand =>
      rcases eval_unary_eq_error_iff.mp h with hoperand | ⟨v, reason, hoperand, happly, hhalt⟩
      · exact absurd hnode (node_ne_of_eval hoperand (by simp only [unary.sizeOf_spec]; omega))
      · cases hhalt
        exact .unary ((eval_eq_ok_iff _ _).mp hoperand)
          ((Operator.unary_eq_error_iff _ _ _).mp ⟨reason, happly, rfl⟩)
  | binary left op right =>
      rcases eval_binary_eq_error_iff.mp h with
        hleft | ⟨v, hleft, hright | ⟨w, reason, hright, happly, hhalt⟩⟩
      · exact absurd hnode (node_ne_of_eval hleft (by simp only [binary.sizeOf_spec]; omega))
      · exact absurd hnode (node_ne_of_eval hright (by simp only [binary.sizeOf_spec]; omega))
      · cases hhalt
        exact .binary ((eval_eq_ok_iff _ _).mp hleft) ((eval_eq_ok_iff _ _).mp hright)
          ((Operator.binary_eq_error_iff _ _ _ _).mp ⟨reason, happly, rfl⟩)

theorem FailsAt.isLeast {e : Expr} {place : Nat} {error : RuntimeError}
    (h : e.FailsAt place error) : IsLeast e.rejections place := by
  refine ⟨⟨error.node, _, _, h.node, rejects_of_eval h.self rfl⟩, ?_⟩
  rintro earlier ⟨node, op, text, hnode, hrejects⟩
  by_contra hlt
  have hmem : node ∈ e.nodes.take place := by
    apply List.mem_of_getElem? (i := earlier)
    rw [List.getElem?_take_of_lt (by omega), hnode]
  obtain ⟨v, hv⟩ := h.before node hmem
  obtain ⟨reason, heval, -⟩ := eval_of_rejects hrejects
  rw [hv] at heval
  cases heval

section Complete

variable {e : Expr} (hcomplete : e.complete = true)
include hcomplete

theorem eval_fails_iff :
    (∃ error, e.eval = .error (.failed error)) ↔ e.rejections.Nonempty := by
  constructor
  · rintro ⟨error, h⟩
    obtain ⟨place, hfails⟩ := exists_failsAt h
    exact ⟨place, hfails.isLeast.1⟩
  · rintro ⟨place, node, op, text, hnode, hrejects⟩
    obtain ⟨reason, hself, -⟩ := eval_of_rejects hrejects
    cases heval : e.eval with
    | ok v =>
        obtain ⟨w, hw⟩ := ok_of_mem_nodes heval node (List.mem_of_getElem? hnode)
        rw [hw] at hself
        cases hself
    | error halt =>
        cases halt with
        | failed error => exact ⟨error, rfl⟩
        | absent what => exact absurd heval (eval_ne_absent hcomplete what)

private theorem eval_eq_error_iff (error : RuntimeError) :
    e.eval = .error (.failed error) ↔
      ∃ place, IsLeast e.rejections place ∧ e.nodes[place]? = some error.node ∧
        error.node.Rejects error.op error.reason.message := by
  constructor
  · intro h
    obtain ⟨place, hfails⟩ := exists_failsAt h
    exact ⟨place, hfails.isLeast, hfails.node, rejects_of_eval hfails.self rfl⟩
  · rintro ⟨place, hleast, hnode, hrejects⟩
    obtain ⟨other, h⟩ := (eval_fails_iff hcomplete).mpr ⟨place, hleast.1⟩
    obtain ⟨place', hfails⟩ := exists_failsAt h
    obtain rfl := hleast.unique hfails.isLeast
    -- both errors are those of the node at the place
    obtain ⟨reason, hself, hreason⟩ := eval_of_rejects hrejects
    have hother := hfails.node
    rw [hnode, Option.some.injEq] at hother
    have hself' := hfails.self
    rw [← hother, hself, Except.error.injEq, Halt.failed.injEq] at hself'
    rw [h, ← hself', Rejection.message_injective hreason]

private theorem eval_succeeds_iff : (∃ v, e.eval = .ok v) ↔ e.rejections = ∅ := by
  rw [← Set.not_nonempty_iff_eq_empty, ← eval_fails_iff hcomplete]
  cases heval : e.eval with
  | ok v => simp
  | error halt =>
      cases halt with
      | failed error => simp
      | absent what => exact absurd heval (eval_ne_absent hcomplete what)

end Complete

/--
Evaluation finds the meaning of every expression without missing nodes, if no
node rejects its operands.  Otherwise it fails at the first node that does, in
the order of evaluation, with the operator of that node and the text that the
operator has for operands of these kinds.
-/
theorem eval_meaning {e : Expr} (hcomplete : e.complete = true) :
    (∀ v, e.eval = .ok v ↔ e.Means v) ∧
      ((∃ error, e.eval = .error (.failed error)) ↔ e.rejections.Nonempty) ∧
      ((∃ v, e.eval = .ok v) ↔ e.rejections = ∅) ∧
      ∀ error, e.eval = .error (.failed error) ↔
        ∃ place, IsLeast e.rejections place ∧ e.nodes[place]? = some error.node ∧
          error.node.Rejects error.op error.reason.message :=
  ⟨eval_eq_ok_iff e, eval_fails_iff hcomplete, eval_succeeds_iff hcomplete,
    eval_eq_error_iff hcomplete⟩

/-- In `-"x" + -nil` both signs reject their operands, and the first is blamed. -/
theorem eval_minus_text_plus_minus_nil :
    ∃ (minus plus : Token) (left right : Expr),
      minus = ⟨.minus, [0x2d], 1, .none⟩ ∧ plus = ⟨.plus, [0x2b], 1, .none⟩ ∧
      left = unary minus (literal (.text [0x78])) ∧ right = unary minus (literal .nil) ∧
      (binary left plus right).complete = true ∧
      3 ∈ (binary left plus right).rejections ∧
      (binary left plus right).eval = .error (.failed ⟨left, minus, .numberNeeded⟩) := by
  have hsign (minus : Token) (hminus : minus.kind = .minus) (v : Value) (hv : v.kind ≠ .number) :
      Rejects (unary minus (literal v)) minus "Operand must be a number." :=
    .unary (.literal v) (by rw [hminus]; exact .minus hv)
  refine ⟨_, _, _, _, rfl, rfl, rfl, rfl, rfl, ?_, ?_⟩
  · exact ⟨_, _, _, rfl, hsign _ rfl .nil (by decide)⟩
  · refine ((eval_meaning rfl).2.2.2 _).mpr ⟨1, ⟨?_, ?_⟩, rfl, hsign _ rfl _ (by decide)⟩
    · exact ⟨_, _, _, rfl, hsign _ rfl _ (by decide)⟩
    · rintro (_ | place) ⟨node, op, text, hnode, hrejects⟩
      · -- the first node is a literal
        cases hnode
        cases hrejects
      · exact Nat.succ_le_succ (Nat.zero_le place)

end Expr

end Scriptlet
