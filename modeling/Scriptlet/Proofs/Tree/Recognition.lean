import Scriptlet.Proofs.Tree.Grammar
import Scriptlet.Proofs.Tree.Tokens

/-!
# The precedence machine recognizes the grammar

Two facts tie the machine of `Precedence` to `Grammar.Derives`.  Completeness
is an equation: on the tokens of a derivation, in front of anything that binds
no tighter, the machine goes from an operand that is due to the finished tree
(`run_due_of_derives`).  Soundness is an invariant: the frames on the stack
spell the tokens that were taken (`Spells`), and every step keeps it.
-/

namespace Scriptlet.Precedence

open Grammar

/-! ## What a run behind an operand depends on -/

/-- The level at which the next token completes waiting operators. -/
def demand (rest : List Token) : Nat :=
  (rest.head?.bind fun t => t.kind.level?).getD 0

@[simp] theorem demand_nil : demand [] = 0 := rfl

@[simp] theorem demand_cons (t : Token) (rest : List Token) :
    demand (t :: rest) = t.kind.level?.getD 0 := rfl

theorem run_ready_congr {e e' : Expr} {stack stack' : List Frame} {rest : List Token}
    (h : reduce (demand rest) e stack = reduce (demand rest) e' stack') :
    run (.ready e) stack rest = run (.ready e') stack' rest := by
  cases rest with
  | nil =>
      rw [demand_nil] at h
      rw [run, run, finish, finish, h]
  | cons t rest =>
      cases hlevel : t.kind.level? with
      | none =>
          rw [demand_cons, hlevel, Option.getD_none] at h
          simp only [run, hlevel, finish, h]
      | some n =>
          rw [demand_cons, hlevel, Option.getD_some] at h
          simp only [run, hlevel, h]

theorem run_ready_unary (op : Token) (e : Expr) (stack : List Frame)
    (rest : List Token) :
    run (.ready e) (.unary op :: stack) rest =
      run (.ready (.unary op e)) stack rest :=
  run_ready_congr (by rw [reduce])

theorem run_ready_binary {op : Token} (left right : Expr) (stack : List Frame)
    {rest : List Token} (h : demand rest ≤ op.kind.level?.getD 0) :
    run (.ready right) (.binary left op :: stack) rest =
      run (.ready (.binary left op right)) stack rest :=
  run_ready_congr (by rw [reduce, if_pos h])

theorem run_due_sign {op : Token} (h : op.kind ∈ [Kind.bang, Kind.minus])
    (stack : List Frame) (rest : List Token) :
    run .due stack (op :: rest) = run .due (.unary op :: stack) rest := by
  simp only [List.mem_cons, List.not_mem_nil, or_false] at h
  rcases h with h | h <;> simp [run, Token.literal?, h, Kind.isUnary]

theorem run_due_paren {left : Token} (h : left.kind = .leftParen)
    (stack : List Frame) (rest : List Token) :
    run .due stack (left :: rest) = run .due (.paren :: stack) rest := by
  simp [run, Token.literal?, h, Kind.isUnary]

theorem run_ready_nil (e : Expr) {rest : List Token} (h : demand rest = 0) :
    run (.ready e) [] rest = .ok (e, rest) := by
  cases rest with
  | nil => rfl
  | cons t rest =>
      cases hlevel : t.kind.level? with
      | none => simp [run, hlevel, reduce, finish]
      | some n =>
          obtain ⟨tier, -, rfl⟩ := Tier.exists_of_level? hlevel
          have := (Phrase.tier tier).one_le_rank
          simp [hlevel] at h this
          omega

/-! ## Completeness -/

/-- The innermost frame leaves a phrase of this rank alone. -/
def Admits (rank : Nat) : List Frame → Prop
  | [] => True
  | .paren :: _ => True
  | .unary _ :: _ => 5 ≤ rank
  | .binary _ op :: _ => op.kind.level?.getD 0 < rank

theorem admits_of_five_le {rank : Nat} (h : 5 ≤ rank) (stack : List Frame) :
    Admits rank stack := by
  cases stack with
  | nil => trivial
  | cons frame stack =>
      cases frame with
      | unary op => exact h
      | binary left op =>
          have := level?_getD_le op.kind
          simp only [Admits]
          omega
      | paren => trivial

theorem Admits.mono {rank rank' : Nat} {stack : List Frame} (h : Admits rank stack)
    (hle : rank ≤ rank') : Admits rank' stack := by
  cases stack with
  | nil => trivial
  | cons frame stack =>
      cases frame with
      | unary op => exact Nat.le_trans h hle
      | binary left op => exact Nat.lt_of_lt_of_le h hle
      | paren => trivial

theorem reduce_of_admits {tier : Tier} {stack : List Frame}
    (h : Admits tier.rank stack) (e : Expr) :
    reduce tier.rank e stack = (e, stack) := by
  cases stack with
  | nil => rfl
  | cons frame stack =>
      cases frame with
      | unary op =>
          have := tier.rank_le
          simp only [Admits] at h
          omega
      | binary left op =>
          simp only [Admits] at h
          rw [reduce, if_neg (by omega)]
      | paren => rfl

/--
The repetitions of one tier, behind its first operand.  Every operator finds
the tree so far on top of a stack that it leaves alone.
-/
private theorem run_links {tier : Tier} (links : List Link)
    (ops : ∀ link ∈ links, link.op.kind ∈ tier.operators)
    (operands : ∀ link ∈ links, ∀ (stack : List Frame) (rest : List Token),
      Admits tier.operand.rank stack → demand rest ≤ tier.operand.rank →
      run .due stack (link.tokens ++ rest) = run (.ready link.operand) stack rest)
    (e : Expr) (stack : List Frame) (rest : List Token)
    (hstack : Admits tier.rank stack) (hrest : demand rest ≤ tier.rank) :
    run (.ready e) stack (links.flatMap Link.spelled ++ rest) =
      run (.ready (links.foldl Link.onto e)) stack rest := by
  induction links generalizing e with
  | nil => rfl
  | cons link links ih =>
      have hlevel := Tier.level?_of_mem (ops link (by simp))
      have htail : demand (links.flatMap Link.spelled ++ rest) ≤ tier.rank := by
        cases links with
        | nil => exact hrest
        | cons next links =>
            have hnext := Tier.level?_of_mem (ops next (by simp))
            simp [Link.spelled, hnext]
      have hread := operands link (by simp) (.binary e link.op :: stack)
        (links.flatMap Link.spelled ++ rest) (by simp [Admits, hlevel])
        (by simp only [Tier.rank_operand]; omega)
      calc
        run (.ready e) stack ((link :: links).flatMap Link.spelled ++ rest) =
            run .due (.binary e link.op :: stack)
              (link.tokens ++ (links.flatMap Link.spelled ++ rest)) := by
          simp only [List.flatMap_cons, Link.spelled, List.cons_append,
            List.append_assoc, run, hlevel, reduce_of_admits hstack]
        _ = run (.ready link.operand) (.binary e link.op :: stack)
              (links.flatMap Link.spelled ++ rest) := hread
        _ = run (.ready (Link.onto e link)) stack
              (links.flatMap Link.spelled ++ rest) :=
          run_ready_binary e link.operand stack (by simpa [hlevel] using htail)
        _ = run (.ready ((link :: links).foldl Link.onto e)) stack rest :=
          ih (fun link hlink => ops link (by simp [hlink]))
            (fun link hlink => operands link (by simp [hlink])) _

private theorem run_due_of_derives {p : Phrase} {ts : List Token} {e : Expr}
    (h : Derives p ts e) (stack : List Frame) (rest : List Token)
    (hstack : Admits p.rank stack) (hrest : demand rest ≤ p.rank) :
    run .due stack (ts ++ rest) = run (.ready e) stack rest := by
  induction h generalizing stack rest with
  | @chain tier ts e links first ops operands ihFirst ihOperands =>
      have hnext : demand (links.flatMap Link.spelled ++ rest) ≤
          tier.operand.rank := by
        cases links with
        | nil =>
            simp only [Phrase.rank_tier] at hrest
            simpa using Nat.le_succ_of_le hrest
        | cons link links =>
            have hlevel := Tier.level?_of_mem (ops link (by simp))
            simp [Link.spelled, hlevel]
      rw [List.append_assoc, ihFirst stack _ (hstack.mono (by simp)) hnext]
      exact run_links links ops ihOperands e stack rest hstack hrest
  | @sign op ts e hop operand ih =>
      have hread := ih (.unary op :: stack) rest (admits_of_five_le (by simp [Phrase.rank]) _)
        hrest
      rw [List.cons_append, run_due_sign hop, hread, run_ready_unary]
  | bare primary ih =>
      exact ih stack rest (admits_of_five_le (by simp [Phrase.rank]) _)
        (Nat.le_succ_of_le hrest)
  | number ht => simp [run, Token.literal?, ht]
  | string ht => simp [run, Token.literal?, ht]
  | true ht => simp [run, Token.literal?, ht]
  | false ht => simp [run, Token.literal?, ht]
  | nil ht => simp [run, Token.literal?, ht]
  | @group left right ts e hleft inner hright ih =>
      have hlevel : right.kind.level? = none := by rw [hright]; rfl
      have hread := ih (.paren :: stack) (right :: rest) trivial (by simp [hlevel])
      rw [List.cons_append, List.cons_append, List.append_assoc, run_due_paren hleft,
        List.singleton_append, hread]
      simp [run, hright, Kind.level?, reduce]

/-! ## Soundness -/

/-- The stack, innermost frame first, spells the tokens taken so far. -/
inductive Spells : List Frame → List Token → Prop
  | nil : Spells [] []
  | paren {left : Token} {stack : List Frame} {ts : List Token}
      (hleft : left.kind = .leftParen) (below : Spells stack ts) :
      Spells (.paren :: stack) (ts ++ [left])
  | unary {op : Token} {stack : List Frame} {ts : List Token}
      (hop : op.kind ∈ [Kind.bang, Kind.minus]) (below : Spells stack ts) :
      Spells (.unary op :: stack) (ts ++ [op])
  | binary {tier : Tier} {left : Expr} {op : Token} {stack : List Frame}
      {ts us : List Token} (hop : op.kind ∈ tier.operators)
      (hstack : Admits tier.rank stack) (hleft : Derives (.tier tier) us left)
      (below : Spells stack ts) :
      Spells (.binary left op :: stack) (ts ++ us ++ [op])

/-- The stack, and on top of it a phrase that binds at least at `n`, spell `ts`. -/
def Holds (n : Nat) (e : Expr) (stack : List Frame) (ts : List Token) : Prop :=
  ∃ (p : Phrase) (before us : List Token),
    ts = before ++ us ∧ Spells stack before ∧ Derives p us e ∧
      n ≤ p.rank ∧ Admits p.rank stack

private theorem holds_primary {n : Nat} {e : Expr} {stack : List Frame}
    {before us : List Token} (hn : n ≤ 4) (hstack : Spells stack before)
    (h : Derives .primary us e) : Holds n e stack (before ++ us) :=
  ⟨.primary, before, us, rfl, hstack, h, by simp only [Phrase.rank]; omega,
    admits_of_five_le (by simp [Phrase.rank]) stack⟩

theorem admits_reduce (n : Nat) (e : Expr) (stack : List Frame) :
    Admits n (reduce n e stack).2 := by
  fun_induction reduce n e stack with
  | case1 e op stack ih => exact ih
  | case2 e left op stack hlevel ih => exact ih
  | case3 e left op stack hlevel => exact Nat.lt_of_not_le hlevel
  | case4 e stack => trivial
  | case5 e => trivial

/-- Completing operators moves tokens from the stack to the phrase on top of it. -/
theorem reduce_holds {n : Nat} {e : Expr} {stack : List Frame} {ts : List Token}
    (hn : n ≤ 4) (h : Holds n e stack ts) :
    Holds n (reduce n e stack).1 (reduce n e stack).2 ts := by
  obtain ⟨p, before, us, rfl, hspells, hderives, hrank, hstack⟩ := h
  induction hspells generalizing p us e with
  | nil => exact ⟨p, [], us, rfl, .nil, hderives, hrank, hstack⟩
  | paren hleft below =>
      exact ⟨p, _, us, rfl, .paren hleft below, hderives, hrank, hstack⟩
  | @unary op stack ts hop below ih =>
      have hsigned : Derives .unary (op :: us) (.unary op e) :=
        .sign hop (hderives.weaken hstack)
      have hlower := ih .unary (op :: us) hsigned (by simp only [Phrase.rank]; omega)
        (admits_of_five_le (Nat.le_refl 5) stack)
      simpa [reduce] using hlower
  | @binary tier left op stack ts ls hop hadmits hleft below ih =>
      have hlevel := Tier.level?_of_mem hop
      by_cases hle : n ≤ tier.rank
      · have hright : Derives tier.operand us e := by
          apply hderives.weaken
          simp only [Admits, hlevel, Option.getD_some] at hstack
          rw [Tier.rank_operand]
          exact hstack
        have hlower := ih (.tier tier) (ls ++ op :: us) (hleft.extend hop hright)
          hle hadmits
        simpa [reduce, hlevel, hle] using hlower
      · rw [reduce, hlevel, Option.getD_some, if_neg hle]
        exact ⟨p, _, us, rfl, .binary hop hadmits hleft below, hderives, hrank, hstack⟩

theorem finish_sound {e e' : Expr} {stack : List Frame} {ts rest rest' : List Token}
    (h : Holds 0 e stack ts) (hfinish : finish e stack rest = .ok (e', rest')) :
    rest' = rest ∧ Derives .expression ts e' := by
  have hreduced := reduce_holds (by omega) h
  unfold finish at hfinish
  split at hfinish
  · rename_i e'' heq
    rw [heq] at hreduced
    simp only [Except.ok.injEq, Prod.mk.injEq] at hfinish
    obtain ⟨rfl, rfl⟩ := hfinish
    obtain ⟨p, before, us, rfl, hspells, hderives, -, -⟩ := hreduced
    cases hspells
    exact ⟨rfl, hderives.weaken (by simpa [Tier.rank] using p.one_le_rank)⟩
  · simp at hfinish

/-! ### Steps -/

theorem derives_of_literal? {t : Token} {value : Value} (h : t.literal? = some value) :
    Derives .primary [t] (.literal value) := by
  unfold Token.literal? at h
  split at h
  · rename_i hkind
    cases h
    exact .false hkind
  · rename_i hkind
    cases h
    exact .true hkind
  · rename_i hkind
    cases h
    exact .nil hkind
  · rename_i hkind
    cases h
    exact .number hkind
  · rename_i hkind
    cases h
    exact .string hkind
  · simp at h

theorem mem_of_isUnary {k : Kind} (h : k.isUnary = true) :
    k ∈ [Kind.bang, Kind.minus] := by
  unfold Kind.isUnary at h
  split at h
  · simp
  · simp
  · simp at h

/-- What the machine has taken when it is in this state. -/
def Covers : State → List Frame → List Token → Prop
  | .due, stack, ts => Spells stack ts
  | .ready e, stack, ts =>
      ∃ before us, ts = before ++ us ∧ Spells stack before ∧ Derives .primary us e

theorem Covers.holds {n : Nat} {e : Expr} {stack : List Frame} {ts : List Token}
    (hn : n ≤ 4) (h : Covers (.ready e) stack ts) : Holds n e stack ts := by
  obtain ⟨before, us, rfl, hstack, hderives⟩ := h
  exact holds_primary hn hstack hderives

theorem Covers.operator {n : Nat} {e left : Expr} {stack stack' : List Frame}
    {ts : List Token} {t : Token} (h : Covers (.ready e) stack ts)
    (hlevel : t.kind.level? = some n) (hreduce : reduce n e stack = (left, stack')) :
    Covers .due (.binary left t :: stack') (ts ++ [t]) := by
  obtain ⟨tier, hop, rfl⟩ := Tier.exists_of_level? hlevel
  have hadmits := admits_reduce tier.rank e stack
  have hholds := reduce_holds tier.rank_le (h.holds tier.rank_le)
  rw [hreduce] at hadmits hholds
  obtain ⟨p, before, us, rfl, hspells, hderives, hrank, -⟩ := hholds
  exact .binary hop hadmits (hderives.weaken hrank) hspells

theorem Covers.close {e inner : Expr} {stack stack' : List Frame}
    {ts : List Token} {t : Token} (h : Covers (.ready e) stack ts)
    (ht : t.kind = .rightParen)
    (hreduce : reduce 0 e stack = (inner, .paren :: stack')) :
    Covers (.ready (.grouping inner)) stack' (ts ++ [t]) := by
  have hholds := reduce_holds (by omega) (h.holds (Nat.zero_le 4))
  rw [hreduce] at hholds
  obtain ⟨p, before, us, rfl, hspells, hderives, -, -⟩ := hholds
  cases hspells with
  | @paren left _ before hleft below =>
      have hinner : Derives .expression us inner :=
        hderives.weaken (by simpa [Tier.rank] using p.one_le_rank)
      exact ⟨before, left :: us ++ [t], by simp, below, .group hleft hinner ht⟩

/-! ### Runs -/

/-- The tokens taken and the first of `ts`, up to `rest`, are an expression. -/
def Completes (taken ts : List Token) (e : Expr) (rest : List Token) : Prop :=
  ∃ used, ts = used ++ rest ∧ Derives .expression (taken ++ used) e ∧
    demand rest = 0

theorem Completes.cons {taken ts rest : List Token} {t : Token} {e : Expr}
    (h : Completes (taken ++ [t]) ts e rest) : Completes taken (t :: ts) e rest := by
  obtain ⟨used, rfl, hderives, hrest⟩ := h
  exact ⟨t :: used, rfl, by simpa using hderives, hrest⟩

private theorem completes_finish {e e' : Expr} {stack : List Frame}
    {taken ts rest : List Token} (h : Holds 0 e stack taken) (hts : demand ts = 0)
    (hfinish : finish e stack ts = .ok (e', rest)) : Completes taken ts e' rest := by
  obtain ⟨rfl, hderives⟩ := finish_sound h hfinish
  exact ⟨[], rfl, by simpa using hderives, hts⟩

theorem run_sound {state : State} {stack : List Frame} {ts taken rest : List Token}
    {e : Expr} (h : Covers state stack taken)
    (hrun : run state stack ts = .ok (e, rest)) : Completes taken ts e rest := by
  fun_induction run state stack ts generalizing taken with
  | case1 stack => simp at hrun
  | case2 stack t ts value hvalue ih =>
      exact .cons (ih ⟨taken, [t], rfl, h, derives_of_literal? hvalue⟩ hrun)
  | case3 stack t ts hvalue hunary ih =>
      exact .cons (ih (.unary (mem_of_isUnary hunary) h) hrun)
  | case4 stack t ts hvalue hunary hparen ih => exact .cons (ih (.paren hparen h) hrun)
  | case5 stack t ts hvalue hunary hparen => simp at hrun
  | case6 operand stack => exact completes_finish (h.holds (Nat.zero_le 4)) rfl hrun
  | case7 operand stack t ts n hlevel left stack' hreduce ih =>
      exact .cons (ih (h.operator hlevel hreduce) hrun)
  | case8 operand stack t ts hlevel hparen inner stack' hreduce ih =>
      exact .cons (ih (h.close hparen hreduce) hrun)
  | case9 operand stack t ts hlevel hparen inner stack' hopen hreduce =>
      have hholds := reduce_holds (by omega) (h.holds (Nat.zero_le 4))
      rw [hreduce] at hholds
      exact completes_finish hholds (by simp [hlevel]) hrun
  | case10 operand stack t ts hlevel hparen =>
      exact completes_finish (h.holds (Nat.zero_le 4)) (by simp [hlevel]) hrun

end Scriptlet.Precedence

namespace Scriptlet.Expr

open Grammar Precedence

/--
Reading takes the longest expression at the front: what it leaves does not
begin with a binary operator.
-/
theorem read_eq_ok_iff {ts rest : List Token} {e : Expr} :
    read ts = .ok (e, rest) ↔
      ∃ used, ts = used ++ rest ∧ Derives .expression used e ∧ demand rest = 0 := by
  constructor
  · intro h
    have hstart : Covers .due [] [] := Spells.nil
    simpa [Completes] using run_sound hstart h
  · rintro ⟨used, rfl, hderives, hrest⟩
    rw [read, run_due_of_derives hderives [] rest trivial (by omega)]
    exact run_ready_nil e hrest

theorem ofTokens_eq_ok_iff_read {ts : List Token} {e : Expr}
    (hts : ∀ t ∈ ts, t.kind ≠ .eof) :
    ofTokens ts = .ok e ↔ read ts = .ok (e, []) := by
  simp only [ofTokens, Tokens.body_ofList_of_forall hts]
  constructor
  · intro h
    split at h
    · simp at h
    · rename_i hread
      cases h
      exact hread
    · simp at h
  · intro h
    simp [h]

/--
`ofTokens` returns the tree of the grammar and nothing else; the grammar is
unambiguous.
-/
theorem ofTokens_eq_ok_iff_derives {ts : List Token}
    (hts : ∀ t ∈ ts, t.kind ≠ .eof) :
    (∀ e, ofTokens ts = .ok e ↔ Derives .expression ts e) ∧
      ∀ e e', Derives .expression ts e → Derives .expression ts e' → e = e' := by
  have hiff (e : Expr) : ofTokens ts = .ok e ↔ Derives .expression ts e := by
    rw [ofTokens_eq_ok_iff_read hts, read_eq_ok_iff]
    simp
  refine ⟨hiff, ?_⟩
  intro e e' h h'
  have heq := ((hiff e).mpr h).symm.trans ((hiff e').mpr h')
  simpa using heq

/-- The tree of `nil - true * -false`. -/
theorem derives_nil_minus_true_star_minus_false :
    (∀ t ∈ [Kind.kwNil, .minus, .kwTrue, .star, .minus, .kwFalse].map Token.ofKind,
        t.kind ≠ .eof) ∧
      Derives .expression
        ([Kind.kwNil, .minus, .kwTrue, .star, .minus, .kwFalse].map Token.ofKind)
        (.binary (.literal .nil) (.ofKind .minus)
          (.binary (.literal (.boolean true)) (.ofKind .star)
            (.unary (.ofKind .minus) (.literal (.boolean false))))) :=
  ⟨by decide, ((ofTokens_eq_ok_iff_derives (by decide)).1 _).1 rfl⟩

end Scriptlet.Expr
