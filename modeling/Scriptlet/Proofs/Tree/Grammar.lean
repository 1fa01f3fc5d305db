import Scriptlet.Tree.Precedence

/-!
# The grammar of programs

The grammar, loosest level first, with the tree that each derivation builds:

    program    → statement*
    statement  → "print" expression ";" | expression ";"
    expression → equality
    equality   → comparison ( ( "!=" | "==" ) comparison )*
    comparison → term ( ( ">" | ">=" | "<" | "<=" ) term )*
    term       → factor ( ( "-" | "+" ) factor )*
    factor     → unary ( ( "/" | "*" ) unary )*
    unary      → ( "!" | "-" ) unary | primary
    primary    → NUMBER | STRING | "true" | "false" | "nil" | "(" expression ")"

Nothing here mentions how programs are read.  `Derives phrase ts e` says that
`ts` is a sentence of `phrase` and that `e` is the tree of a derivation.
-/

namespace Scriptlet

def Token.ofKind (k : Kind) : Token := ⟨k, [], 1, .none⟩

namespace Grammar

inductive Tier where
  | equality
  | comparison
  | term
  | factor
  deriving DecidableEq, Repr

inductive Phrase where
  | tier (tier : Tier)
  | unary
  | primary
  deriving DecidableEq, Repr

abbrev Phrase.expression : Phrase := .tier .equality

namespace Tier

def operators : Tier → List Kind
  | equality => [.bangEqual, .equalEqual]
  | comparison => [.greater, .greaterEqual, .less, .lessEqual]
  | term => [.minus, .plus]
  | factor => [.slash, .star]

def operand : Tier → Phrase
  | equality => .tier .comparison
  | comparison => .tier .term
  | term => .tier .factor
  | factor => .unary

def rank : Tier → Nat
  | equality => 1
  | comparison => 2
  | term => 3
  | factor => 4

end Tier

/-- One repetition of a binary tier: an operator and the operand behind it. -/
structure Link where
  op : Token
  tokens : List Token
  operand : Expr

def Link.spelled (link : Link) : List Token := link.op :: link.tokens

def Link.onto (left : Expr) (link : Link) : Expr :=
  .binary left link.op link.operand

inductive Derives : Phrase → List Token → Expr → Prop
  | chain {tier : Tier} {ts : List Token} {e : Expr} (links : List Link)
      (first : Derives tier.operand ts e)
      (ops : ∀ link ∈ links, link.op.kind ∈ tier.operators)
      (operands : ∀ link ∈ links, Derives tier.operand link.tokens link.operand) :
      Derives (.tier tier) (ts ++ links.flatMap Link.spelled)
        (links.foldl Link.onto e)
  | sign {op : Token} {ts : List Token} {e : Expr}
      (hop : op.kind ∈ [Kind.bang, Kind.minus]) (operand : Derives .unary ts e) :
      Derives .unary (op :: ts) (.unary op e)
  | bare {ts : List Token} {e : Expr} (primary : Derives .primary ts e) :
      Derives .unary ts e
  | number {t : Token} (ht : t.kind = .number) :
      Derives .primary [t] (.literal (.number t.numberValue))
  | string {t : Token} (ht : t.kind = .string) :
      Derives .primary [t] (.literal (.text t.textValue))
  | true {t : Token} (ht : t.kind = .kwTrue) :
      Derives .primary [t] (.literal (.boolean Bool.true))
  | false {t : Token} (ht : t.kind = .kwFalse) :
      Derives .primary [t] (.literal (.boolean Bool.false))
  | nil {t : Token} (ht : t.kind = .kwNil) :
      Derives .primary [t] (.literal .nil)
  | group {left right : Token} {ts : List Token} {e : Expr}
      (hleft : left.kind = .leftParen) (inner : Derives .expression ts e)
      (hright : right.kind = .rightParen) :
      Derives .primary (left :: ts ++ [right]) (.grouping e)

inductive Statement : List Token → Stmt → Prop
  | print {keyword semicolon : Token} {ts : List Token} {e : Expr}
      (hkeyword : keyword.kind = .kwPrint) (value : Derives .expression ts e)
      (hsemicolon : semicolon.kind = .semicolon) :
      Statement (keyword :: ts ++ [semicolon]) (.print e)
  | expression {semicolon : Token} {ts : List Token} {e : Expr}
      (value : Derives .expression ts e)
      (hsemicolon : semicolon.kind = .semicolon) :
      Statement (ts ++ [semicolon]) (.expression e)

inductive Statements : List Token → List Stmt → Prop
  | nil : Statements [] []
  | cons {ts us : List Token} {s : Stmt} {stmts : List Stmt}
      (first : Statement ts s) (rest : Statements us stmts) :
      Statements (ts ++ us) (s :: stmts)

/-! ## Ranks -/

def Phrase.rank : Phrase → Nat
  | tier l => l.rank
  | unary => 5
  | primary => 6

@[simp] theorem Phrase.rank_tier (l : Tier) :
    (Phrase.tier l).rank = l.rank := rfl

theorem Phrase.one_le_rank (p : Phrase) : 1 ≤ p.rank := by
  cases p with
  | tier l => cases l <;> simp [Tier.rank]
  | unary => simp [rank]
  | primary => simp [rank]

theorem Phrase.eq_of_rank_eq {p q : Phrase} (h : p.rank = q.rank) : p = q := by
  rcases p with (_ | _ | _ | _) | _ | _ <;>
    rcases q with (_ | _ | _ | _) | _ | _ <;>
    simp_all [rank, Tier.rank]

theorem Tier.rank_le (l : Tier) : l.rank ≤ 4 := by
  cases l <;> simp [rank]

@[simp] theorem Tier.rank_operand (l : Tier) :
    l.operand.rank = l.rank + 1 := by
  cases l <;> rfl

theorem Tier.level?_of_mem {l : Tier} {k : Kind} (h : k ∈ l.operators) :
    k.level? = some l.rank := by
  cases l <;> simp only [operators, List.mem_cons, List.not_mem_nil, or_false] at h
  · rcases h with rfl | rfl <;> rfl
  · rcases h with rfl | rfl | rfl | rfl <;> rfl
  · rcases h with rfl | rfl <;> rfl
  · rcases h with rfl | rfl <;> rfl

theorem Tier.exists_of_level? {k : Kind} {n : Nat} (h : k.level? = some n) :
    ∃ l : Tier, k ∈ l.operators ∧ l.rank = n := by
  unfold Kind.level? at h
  split at h
  · exact ⟨.equality, by simp [operators], by simpa [rank] using h⟩
  · exact ⟨.equality, by simp [operators], by simpa [rank] using h⟩
  · exact ⟨.comparison, by simp [operators], by simpa [rank] using h⟩
  · exact ⟨.comparison, by simp [operators], by simpa [rank] using h⟩
  · exact ⟨.comparison, by simp [operators], by simpa [rank] using h⟩
  · exact ⟨.comparison, by simp [operators], by simpa [rank] using h⟩
  · exact ⟨.term, by simp [operators], by simpa [rank] using h⟩
  · exact ⟨.term, by simp [operators], by simpa [rank] using h⟩
  · exact ⟨.factor, by simp [operators], by simpa [rank] using h⟩
  · exact ⟨.factor, by simp [operators], by simpa [rank] using h⟩
  · simp at h

theorem level?_getD_le (k : Kind) : k.level?.getD 0 ≤ 4 := by
  cases h : k.level? with
  | none => simp
  | some n =>
      obtain ⟨l, -, rfl⟩ := Tier.exists_of_level? h
      simpa using l.rank_le

namespace Derives

/-! ## Derived rules -/

theorem single {tier : Tier} {ts : List Token} {e : Expr}
    (h : Derives tier.operand ts e) : Derives (.tier tier) ts e := by
  simpa using chain [] h (by simp) (by simp)

/-- A tier grows to the right, one operator and one operand at a time. -/
theorem extend {tier : Tier} {ts us : List Token} {left right : Expr} {op : Token}
    (h : Derives (.tier tier) ts left) (hop : op.kind ∈ tier.operators)
    (hright : Derives tier.operand us right) :
    Derives (.tier tier) (ts ++ op :: us) (.binary left op right) := by
  cases h with
  | chain links first ops operands =>
      have all := chain (links ++ [⟨op, us, right⟩]) first
        (by
          intro link hlink
          rcases List.mem_append.mp hlink with hlink | hlink
          · exact ops link hlink
          · obtain rfl := List.mem_singleton.mp hlink
            exact hop)
        (by
          intro link hlink
          rcases List.mem_append.mp hlink with hlink | hlink
          · exact operands link hlink
          · obtain rfl := List.mem_singleton.mp hlink
            exact hright)
      simpa [Link.spelled, Link.onto] using all

private theorem loosen {p : Phrase} {ts : List Token} {e : Expr}
    (h : Derives p ts e) (hp : 1 < p.rank) :
    ∃ q : Phrase, q.rank + 1 = p.rank ∧ Derives q ts e := by
  cases p with
  | tier l =>
      cases l with
      | equality => simp [Tier.rank] at hp
      | comparison => exact ⟨.tier .equality, rfl, single h⟩
      | term => exact ⟨.tier .comparison, rfl, single h⟩
      | factor => exact ⟨.tier .term, rfl, single h⟩
  | unary => exact ⟨.tier .factor, rfl, single h⟩
  | primary => exact ⟨.unary, rfl, bare h⟩

theorem weaken {p q : Phrase} {ts : List Token} {e : Expr} (h : Derives p ts e)
    (hqp : q.rank ≤ p.rank) : Derives q ts e := by
  induction hgap : p.rank - q.rank generalizing p with
  | zero =>
      have heq : p = q := Phrase.eq_of_rank_eq (by omega)
      exact heq ▸ h
  | succ gap ih =>
      have hq := q.one_le_rank
      obtain ⟨r, hr, h⟩ := loosen h (by omega)
      exact ih h (by omega) (by omega)

end Derives

end Grammar

end Scriptlet
