import Scriptlet.Proofs.Tree.Descent

/-!
# The descent reads expressions as the machine does

Where a phrase is due the machine has a stack that leaves the phrase alone, and
behind the phrase it is ready with the tree that the descent gives.  They take
the same tokens, and where one of them fails the other fails in front of the
same token (`Reads`).  Fuel in proportion to the number of tokens is enough for
the descent (`reads_phrases_links`).
-/

namespace Scriptlet

namespace Grammar

theorem Tier.operand_ne_primary (tier : Tier) : tier.operand ≠ .primary := by
  cases tier <;> simp [Tier.operand]

private theorem Tier.eof_not_mem_operators (tier : Tier) : Kind.eof ∉ tier.operators := by
  cases tier <;> decide

end Grammar

private theorem Token.kind_not_mem_of_literal? {t : Token} (h : t.literal? = none) :
    t.kind ∉ [Kind.kwFalse, .kwTrue, .kwNil, .number, .string] := by
  unfold Token.literal? at h
  split at h <;> simp_all

namespace Precedence

open Grammar

variable {rest : List Token}

theorem demand_le (rest : List Token) : demand rest ≤ 4 := by
  cases rest with
  | nil => simp
  | cons t rest => simpa using level?_getD_le t.kind

private theorem one_le_of_level? {k : Kind} {n : Nat} (h : k.level? = some n) : 1 ≤ n := by
  obtain ⟨tier, -, rfl⟩ := Tier.exists_of_level? h
  exact (Phrase.tier tier).one_le_rank

private theorem demand_ne_of_not_mem {tier : Tier} (h : ∀ t ∈ rest.head?, t.kind ∉ tier.operators) :
    demand rest ≠ tier.rank := by
  intro hdemand
  have hpositive := (Phrase.tier tier).one_le_rank
  rw [Phrase.rank_tier] at hpositive
  cases rest with
  | nil =>
      rw [demand_nil] at hdemand
      omega
  | cons t rest =>
      cases hlevel : t.kind.level? with
      | none =>
          rw [demand_cons, hlevel, Option.getD_none] at hdemand
          omega
      | some n =>
          obtain ⟨tier', hmem, hrank⟩ := Tier.exists_of_level? hlevel
          rw [demand_cons, hlevel, Option.getD_some, ← hrank] at hdemand
          cases Phrase.eq_of_rank_eq (p := .tier tier') (q := .tier tier) hdemand
          exact h t rfl hmem

private theorem run_ready_paren (e : Expr) (stack : List Frame) {left : List Token}
    (hleft : demand left = 0) :
    Precedence.run (.ready e) (.paren :: stack) left =
      match left with
      | [] => .error ⟨.closeParen, []⟩
      | t :: more =>
        if t.kind = .rightParen then Precedence.run (.ready (.grouping e)) stack more
        else .error ⟨.closeParen, t :: more⟩ := by
  cases left with
  | nil => rfl
  | cons t more =>
      have hlevel : t.kind.level? = none := by
        cases hlevel : t.kind.level? with
        | none => rfl
        | some n =>
            have hpositive := one_le_of_level? hlevel
            rw [demand_cons, hlevel, Option.getD_some] at hleft
            omega
      simp [Precedence.run, hlevel, finish, reduce]

end Precedence

namespace Descent

open Grammar Precedence

/-! ## What stands ahead -/

/-- From index `i` on stand the tokens `rest`, of which none ends the list, and then `stop`. -/
structure Ahead (toks : List Token) (i : Nat) (rest : List Token) (stop : Token) : Prop where
  split : ∃ behind, toks.drop i = rest ++ stop :: behind
  body : ∀ t ∈ rest, t.kind ≠ .eof
  eof : stop.kind = .eof

section Ahead

variable {toks rest : List Token} {i : Nat} {t stop : Token}

theorem Ahead.drop (used : List Token) {left : List Token} (h : Ahead toks i (used ++ left) stop) :
    Ahead toks (i + used.length) left stop := by
  obtain ⟨⟨behind, hsplit⟩, hbody, heof⟩ := h
  refine ⟨⟨behind, ?_⟩, fun t ht => hbody t (List.mem_append_right used ht), heof⟩
  rw [← List.drop_drop, hsplit, List.append_assoc, List.drop_left]

theorem Ahead.tail (h : Ahead toks i (t :: rest) stop) : Ahead toks (i + 1) rest stop :=
  h.drop [t]

theorem Ahead.suffix {left : List Token} (h : Ahead toks i rest stop) (hleft : left <:+ rest) :
    Ahead toks (i + rest.length - left.length) left stop := by
  obtain ⟨used, rfl⟩ := hleft
  rw [List.length_append, ← Nat.add_assoc, Nat.add_sub_cancel]
  exact h.drop used

theorem Ahead.getElem? (h : Ahead toks i rest stop) : toks[i]? = some (rest.headD stop) := by
  obtain ⟨⟨behind, hsplit⟩, -, -⟩ := h
  rw [← List.head?_drop, hsplit]
  cases rest <;> rfl

theorem Ahead.previous (h : Ahead toks i (t :: rest) stop) :
    previous.run toks (i + 1) = .done t (i + 1) :=
  Step.run_previous h.getElem?

theorem Ahead.check {kind : Kind} (h : Ahead toks i rest stop) (hkind : kind ≠ .eof) :
    (check kind).run toks i = .done ((rest.headD stop).kind == kind) i := by
  rw [Descent.check, Step.run_bind_of_done (Step.run_isAtEnd h.getElem?)]
  cases rest with
  | nil =>
      have heof := h.eof
      simp [heof, hkind, Ne.symm hkind]
  | cons t rest =>
      have hne := h.body t List.mem_cons_self
      rw [if_neg (by simpa using hne), Step.run_bind_of_done (Step.run_peek h.getElem?)]
      rfl

theorem Ahead.advance (h : Ahead toks i (t :: rest) stop) :
    advance.run toks i = .done t (i + 1) :=
  Step.run_advance h.getElem? (h.body t List.mem_cons_self)

private theorem Ahead.takeAny_of_mem {kinds : List Kind} (h : Ahead toks i (t :: rest) stop)
    (hkinds : .eof ∉ kinds) (ht : t.kind ∈ kinds) :
    (takeAny kinds).run toks i = .done true (i + 1) := by
  induction kinds with
  | nil => simp at ht
  | cons kind kinds ih =>
      rw [List.mem_cons, not_or] at hkinds
      rw [takeAny, Step.run_bind_of_done (h.check (Ne.symm hkinds.1)), List.headD_cons]
      by_cases hkind : t.kind = kind
      · rw [if_pos (by simpa using hkind), Step.run_bind_of_done h.advance, Step.run_pure]
      · rw [if_neg (by simpa using hkind)]
        exact ih hkinds.2 (List.mem_of_ne_of_mem hkind ht)

private theorem Ahead.takeAny_of_not_mem {kinds : List Kind} (h : Ahead toks i rest stop)
    (hkinds : .eof ∉ kinds) (hrest : ∀ t ∈ rest.head?, t.kind ∉ kinds) :
    (takeAny kinds).run toks i = .done false i := by
  induction kinds with
  | nil => rfl
  | cons kind kinds ih =>
      rw [List.mem_cons, not_or] at hkinds
      have hne : (rest.headD stop).kind ≠ kind := by
        cases rest with
        | nil => exact h.eof ▸ hkinds.1
        | cons t rest => exact fun heq => hrest t rfl (heq ▸ List.mem_cons_self)
      rw [takeAny, Step.run_bind_of_done (h.check (Ne.symm hkinds.1)),
        if_neg (by simpa using hne)]
      exact ih hkinds.2 fun t ht hmem => hrest t ht (List.mem_cons_of_mem kind hmem)

theorem Ahead.choose_of_mem {α : Type} {kinds : List Kind} (h : Ahead toks i (t :: rest) stop)
    (hkinds : .eof ∉ kinds) (ht : t.kind ∈ kinds) (x y : Step α) :
    (takeAny kinds >>= fun taken => if taken = true then x else y).run toks i =
      x.run toks (i + 1) := by
  rw [Step.run_bind_of_done (h.takeAny_of_mem hkinds ht), if_pos rfl]

theorem Ahead.choose_of_not_mem {α : Type} {kinds : List Kind} (h : Ahead toks i rest stop)
    (hkinds : .eof ∉ kinds) (hrest : ∀ t ∈ rest.head?, t.kind ∉ kinds) (x y : Step α) :
    (takeAny kinds >>= fun taken => if taken = true then x else y).run toks i =
      y.run toks i := by
  rw [Step.run_bind_of_done (h.takeAny_of_not_mem hkinds hrest), if_neg Bool.false_ne_true]

theorem Ahead.blame {α : Type} (h : Ahead toks i rest stop) (expected : Expected) :
    (blame expected : Step α).run toks i = .misfit (Misfit.ofStuck stop ⟨expected, rest⟩) i := by
  rw [Descent.blame, Step.run_bind_of_done (Step.run_peek h.getElem?)]
  rfl

theorem Ahead.consume_of_eq {kind : Kind} {expected : Expected}
    (h : Ahead toks i (t :: rest) stop) (hkind : kind ≠ .eof) (ht : t.kind = kind) :
    (consume kind expected).run toks i = .done t (i + 1) := by
  rw [consume, Step.run_bind_of_done (h.check hkind), if_pos (by simpa using ht), h.advance]

theorem Ahead.consume_of_ne {kind : Kind} {expected : Expected} (h : Ahead toks i rest stop)
    (hkind : kind ≠ .eof) (hrest : ∀ t ∈ rest.head?, t.kind ≠ kind) :
    (consume kind expected).run toks i =
      .misfit (Misfit.ofStuck stop ⟨expected, rest⟩) i := by
  have hne : (rest.headD stop).kind ≠ kind := by
    cases rest with
    | nil => exact h.eof ▸ hkind.symm
    | cons t rest => exact hrest t rfl
  rw [consume, Step.run_bind_of_done (h.check hkind), if_neg (by simpa using hne), h.blame]

end Ahead

/-! ## Expressions -/

/--
What reading by index gives in front of `rest`, compared with the machine in a
state in front of the same tokens: they take the same ones, give the same tree
and blame the same token.  The stack of the machine may be any that leaves a
phrase of this rank alone.
-/
inductive Reads (stop : Token) (state : State) (rank i : Nat) (rest : List Token) :
    Result Expr → Prop
  | done (used : List Token) {left : List Token} {e : Expr} (split : rest = used ++ left)
      (machine : ∀ stack, Admits rank stack →
        Precedence.run state stack rest = Precedence.run (.ready e) stack left)
      (loose : demand left < rank) :
      Reads stop state rank i rest (.done e (i + used.length))
  | misfit (used : List Token) {left : List Token} {expected : Expected}
      (split : rest = used ++ left)
      (machine : ∀ stack, Admits rank stack →
        Precedence.run state stack rest = .error ⟨expected, left⟩) :
      Reads stop state rank i rest
        (.misfit (Misfit.ofStuck stop ⟨expected, left⟩) (i + used.length))

section Reads

variable {stop : Token} {state state' : State} {rank i : Nat} {used left rest : List Token}
  {o : Result Expr}

theorem Reads.behind (used : List Token) (h : Reads stop state' rank (i + used.length) left o)
    (machine : ∀ stack, Admits rank stack →
      Precedence.run state stack (used ++ left) = Precedence.run state' stack left) :
    Reads stop state rank i (used ++ left) o := by
  cases h with
  | @done more last e split hmachine loose =>
      subst split
      rw [Nat.add_assoc, ← List.length_append]
      refine .done _ (List.append_assoc used more last).symm ?_ loose
      exact fun stack hstack => (machine stack hstack).trans (hmachine stack hstack)
  | @misfit more last expected split hmachine =>
      subst split
      rw [Nat.add_assoc, ← List.length_append]
      refine .misfit _ (List.append_assoc used more last).symm ?_
      exact fun stack hstack => (machine stack hstack).trans (hmachine stack hstack)

private theorem reads_literal {t : Token} {value : Value} (h : t.literal? = some value) :
    Reads stop .due 6 i (t :: rest) (.done (.literal value) (i + 1)) := by
  refine .done [t] rfl (fun stack _ => ?_) ?_
  · simp [Precedence.run, h]
  · exact Nat.lt_of_le_of_lt (demand_le rest) (by omega)

end Reads

def ReadsPhrases (toks : List Token) (stop : Token) (fuel : Nat) : Prop :=
  ∀ (p : Phrase) (i : Nat) (rest : List Token), Ahead toks i rest stop →
    6 * rest.length + 7 ≤ fuel + p.rank →
    (p = .primary → ∀ t ∈ rest.head?, t.kind ∉ [Kind.bang, .minus]) →
    Reads stop .due p.rank i rest ((phrase fuel p).run toks i)

def ReadsLinks (toks : List Token) (stop : Token) (fuel : Nat) : Prop :=
  ∀ (tier : Tier) (left : Expr) (i : Nat) (rest : List Token), Ahead toks i rest stop →
    demand rest ≤ tier.rank → 6 * rest.length + 1 ≤ fuel →
    Reads stop (.ready left) tier.rank i rest ((links fuel tier left).run toks i)

section Productions

variable {toks rest : List Token} {stop : Token} {fuel i : Nat}

private theorem reads_tier (ihPhrases : ReadsPhrases toks stop fuel)
    (ihLinks : ReadsLinks toks stop fuel)
    (tier : Tier) (h : Ahead toks i rest stop)
    (hfuel : 6 * rest.length + 7 ≤ fuel + 1 + tier.rank) :
    Reads stop .due tier.rank i rest ((phrase (fuel + 1) (.tier tier)).run toks i) := by
  have hrank := tier.rank_le
  have hfirst := ihPhrases tier.operand i rest h
    (by rw [tier.rank_operand]; omega) (fun hp => absurd hp (Tier.operand_ne_primary tier))
  rw [tier.rank_operand] at hfirst
  rw [phrase]
  generalize hresult : (phrase fuel tier.operand).run toks i = o at hfirst
  cases hfirst with
  | @done used left e split machine loose =>
      subst split
      rw [Step.run_bind_of_done hresult]
      rw [List.length_append] at hfuel
      have hlater := ihLinks tier e _ left (h.drop used) (Nat.le_of_lt_succ loose) (by omega)
      exact hlater.behind used fun stack hstack => machine stack (hstack.mono (Nat.le_succ _))
  | @misfit used left expected split machine =>
      rw [Step.run_bind_of_misfit hresult]
      exact .misfit _ split fun stack hstack => machine stack (hstack.mono (Nat.le_succ _))

private theorem reads_links (ihPhrases : ReadsPhrases toks stop fuel)
    (ihLinks : ReadsLinks toks stop fuel)
    (tier : Tier) (e : Expr) (h : Ahead toks i rest stop) (hrest : demand rest ≤ tier.rank)
    (hfuel : 6 * rest.length + 1 ≤ fuel + 1) :
    Reads stop (.ready e) tier.rank i rest ((links (fuel + 1) tier e).run toks i) := by
  have heof := Tier.eof_not_mem_operators tier
  by_cases hmem : ∀ t ∈ rest.head?, t.kind ∉ tier.operators
  · rw [links, h.choose_of_not_mem heof hmem]
    have hne := demand_ne_of_not_mem hmem
    exact .done [] rfl (fun _ _ => rfl) (Nat.lt_of_le_of_ne hrest hne)
  · push Not at hmem
    obtain ⟨op, hop, hmem⟩ := hmem
    obtain ⟨rest, rfl⟩ := List.head?_eq_some_iff.mp hop
    have hlevel := Tier.level?_of_mem hmem
    rw [List.length_cons] at hfuel
    have hright := ihPhrases tier.operand (i + 1) rest h.tail
      (by rw [tier.rank_operand]; omega) (fun hp => absurd hp (Tier.operand_ne_primary tier))
    rw [tier.rank_operand] at hright
    have hmachine (stack : List Frame) (hstack : Admits tier.rank stack) :
        Precedence.run (.ready e) stack (op :: rest) =
          Precedence.run .due (.binary e op :: stack) rest := by
      simp only [Precedence.run, hlevel, reduce_of_admits hstack]
    have hadmits (stack : List Frame) : Admits (tier.rank + 1) (.binary e op :: stack) := by
      simp [Admits, hlevel]
    rw [links, h.choose_of_mem heof hmem, Step.run_bind_of_done h.previous]
    generalize hresult : (phrase fuel tier.operand).run toks (i + 1) = o at hright
    cases hright with
    | @done used left right split machine loose =>
        subst split
        rw [Step.run_bind_of_done hresult]
        rw [List.length_append] at hfuel
        have hlater := ihLinks tier (.binary e op right) _ left (h.tail.drop used)
          (Nat.le_of_lt_succ loose) (by omega)
        rw [Nat.add_assoc, Nat.add_comm 1] at hlater ⊢
        refine hlater.behind (op :: used) fun stack hstack => ?_
        calc
          Precedence.run (.ready e) stack (op :: used ++ left) =
              Precedence.run .due (.binary e op :: stack) (used ++ left) := hmachine stack hstack
          _ = Precedence.run (.ready right) (.binary e op :: stack) left :=
            machine _ (hadmits stack)
          _ = Precedence.run (.ready (.binary e op right)) stack left :=
            run_ready_binary e right stack (by simpa [hlevel] using Nat.le_of_lt_succ loose)
    | @misfit used left expected split machine =>
        subst split
        rw [Step.run_bind_of_misfit hresult, Nat.add_assoc, Nat.add_comm 1]
        refine .misfit (op :: used) rfl fun stack hstack => ?_
        exact (hmachine stack hstack).trans (machine _ (hadmits stack))

private theorem reads_sign (ihPhrases : ReadsPhrases toks stop fuel) {op : Token}
    (hop : op.kind ∈ [Kind.bang, .minus]) (h : Ahead toks i (op :: rest) stop)
    (hfuel : 6 * rest.length + 7 ≤ fuel) :
    Reads stop .due 5 i (op :: rest) ((phrase (fuel + 1) .unary).run toks i) := by
  have hoperand := ihPhrases .unary (i + 1) rest h.tail (by omega) (by simp)
  have hadmits (stack : List Frame) : Admits 5 (.unary op :: stack) := Nat.le_refl 5
  rw [phrase, h.choose_of_mem (by decide) hop, Step.run_bind_of_done h.previous]
  generalize hresult : (phrase fuel .unary).run toks (i + 1) = o at hoperand
  cases hoperand with
  | @done used left e split machine loose =>
      rw [Step.run_bind_of_done hresult, Step.run_pure, Nat.add_assoc, Nat.add_comm 1]
      refine .done (op :: used) (congrArg _ split) (fun stack _ => ?_) loose
      rw [run_due_sign hop, machine _ (hadmits stack), run_ready_unary]
  | @misfit used left expected split machine =>
      rw [Step.run_bind_of_misfit hresult, Nat.add_assoc, Nat.add_comm 1]
      refine .misfit (op :: used) (congrArg _ split) fun stack _ => ?_
      rw [run_due_sign hop, machine _ (hadmits stack)]

theorem Reads.unary {o : Result Expr} (h : Reads stop .due 6 i rest o) :
    Reads stop .due 5 i rest o := by
  cases h with
  | done used split machine loose =>
      refine .done _ split (fun stack _ => machine stack (admits_of_five_le (by omega) stack)) ?_
      exact Nat.lt_succ_of_le (demand_le _)
  | misfit used split machine =>
      exact .misfit _ split fun stack _ => machine stack (admits_of_five_le (by omega) stack)

private theorem run_primary_of_literal {t : Token} {value : Value}
    (h : Ahead toks i (t :: rest) stop)
    (ht : t.literal? = some value) :
    (phrase (fuel + 1) .primary).run toks i = .done (.literal value) (i + 1) := by
  rw [phrase]
  unfold Token.literal? at ht
  split at ht
  · rename_i hkind
    cases ht
    rw [h.choose_of_mem (by decide) (by simp [hkind])]
    rfl
  · rename_i hkind
    cases ht
    rw [h.choose_of_not_mem (by decide) (by simp [hkind]),
      h.choose_of_mem (by decide) (by simp [hkind])]
    rfl
  · rename_i hkind
    cases ht
    rw [h.choose_of_not_mem (by decide) (by simp [hkind]),
      h.choose_of_not_mem (by decide) (by simp [hkind]),
      h.choose_of_mem (by decide) (by simp [hkind])]
    rfl
  · rename_i hkind
    cases ht
    rw [h.choose_of_not_mem (by decide) (by simp [hkind]),
      h.choose_of_not_mem (by decide) (by simp [hkind]),
      h.choose_of_not_mem (by decide) (by simp [hkind]),
      h.choose_of_mem (by decide) (by simp [hkind]), Step.run_bind_of_done h.previous]
    rfl
  · rename_i hkind
    cases ht
    rw [h.choose_of_not_mem (by decide) (by simp [hkind]),
      h.choose_of_not_mem (by decide) (by simp [hkind]),
      h.choose_of_not_mem (by decide) (by simp [hkind]),
      h.choose_of_not_mem (by decide) (by simp [hkind]),
      h.choose_of_mem (by decide) (by simp [hkind]), Step.run_bind_of_done h.previous]
    rfl
  · cases ht

theorem run_primary_of_not_literal (h : Ahead toks i rest stop)
    (hrest : ∀ t ∈ rest.head?, t.literal? = none) :
    (phrase (fuel + 1) .primary).run toks i =
      (takeAny [.leftParen] >>= fun taken =>
        if taken = true then do
          let inner ← phrase fuel .expression
          let _ ← consume .rightParen .closeParen
          return .grouping inner
        else blame .expression).run toks i := by
  have hnot {kind : Kind} (hkind : kind ∈ [Kind.kwFalse, .kwTrue, .kwNil, .number, .string]) :
      ∀ t ∈ rest.head?, t.kind ∉ [kind] := by
    intro t ht hmem
    rw [List.mem_singleton] at hmem
    exact Token.kind_not_mem_of_literal? (hrest t ht) (hmem ▸ hkind)
  rw [phrase, h.choose_of_not_mem (by decide) (hnot (by decide)),
    h.choose_of_not_mem (by decide) (hnot (by decide)),
    h.choose_of_not_mem (by decide) (hnot (by decide)),
    h.choose_of_not_mem (by decide) (hnot (by decide)),
    h.choose_of_not_mem (by decide) (hnot (by decide))]

private theorem reads_group (ihPhrases : ReadsPhrases toks stop fuel) {paren : Token}
    (hparen : paren.kind = .leftParen) (h : Ahead toks i (paren :: rest) stop)
    (hfuel : 6 * rest.length + 6 ≤ fuel) :
    Reads stop .due 6 i (paren :: rest) ((phrase (fuel + 1) .primary).run toks i) := by
  have hinner := ihPhrases .expression (i + 1) rest h.tail
    (by simp only [Phrase.rank_tier, Tier.rank]; omega) (by simp)
  simp only [Phrase.rank_tier, Tier.rank] at hinner
  have hadmits (stack : List Frame) : Admits 1 (.paren :: stack) := trivial
  have hstart : ∀ t ∈ (paren :: rest).head?, t.literal? = none := by
    simp [Token.literal?, hparen]
  rw [run_primary_of_not_literal h hstart, h.choose_of_mem (by decide) (by simp [hparen])]
  generalize hresult : (phrase fuel .expression).run toks (i + 1) = o at hinner
  cases hinner with
  | @done used left e split machine loose =>
      subst split
      have hclose := fun stack => run_ready_paren e stack (Nat.lt_one_iff.mp loose)
      rw [Step.run_bind_of_done hresult]
      have hahead := h.tail.drop used
      cases left with
      | nil =>
          rw [Step.run_bind_of_misfit (hahead.consume_of_ne (by decide) (by simp)), Nat.add_assoc,
            Nat.add_comm 1]
          refine .misfit (paren :: used) rfl fun stack _ => ?_
          rw [run_due_paren hparen, machine _ (hadmits stack), hclose]
      | cons t more =>
          by_cases ht : t.kind = .rightParen
          · rw [Step.run_bind_of_done (hahead.consume_of_eq (by decide) ht), Step.run_pure]
            have hlength : i + 1 + used.length + 1 =
                i + (paren :: (used ++ [t])).length := by
              simp only [List.length_cons, List.length_append, List.length_nil]
              omega
            rw [hlength]
            refine .done (paren :: (used ++ [t])) (by simp) (fun stack _ => ?_)
              (Nat.lt_of_le_of_lt (demand_le more) (by omega))
            rw [run_due_paren hparen, machine _ (hadmits stack), hclose]
            simp [ht]
          · rw [Step.run_bind_of_misfit (hahead.consume_of_ne (by decide) (by simpa using ht)),
              Nat.add_assoc, Nat.add_comm 1]
            refine .misfit (paren :: used) rfl fun stack _ => ?_
            rw [run_due_paren hparen, machine _ (hadmits stack), hclose]
            simp [ht]
  | @misfit used left expected split machine =>
      rw [Step.run_bind_of_misfit hresult, Nat.add_assoc, Nat.add_comm 1]
      refine .misfit (paren :: used) (congrArg _ split) fun stack _ => ?_
      rw [run_due_paren hparen, machine _ (hadmits stack)]

private theorem reads_primary (ihPhrases : ReadsPhrases toks stop fuel) (h : Ahead toks i rest stop)
    (hfuel : 6 * rest.length + 7 ≤ fuel + 1 + 6)
    (hsign : ∀ t ∈ rest.head?, t.kind ∉ [Kind.bang, .minus]) :
    Reads stop .due 6 i rest ((phrase (fuel + 1) .primary).run toks i) := by
  cases rest with
  | nil =>
      rw [run_primary_of_not_literal h (by simp), h.choose_of_not_mem (by decide) (by simp),
        h.blame]
      exact .misfit [] rfl fun stack _ => rfl
  | cons t rest =>
      cases hliteral : t.literal? with
      | some value =>
          rw [run_primary_of_literal h hliteral]
          exact reads_literal hliteral
      | none =>
          by_cases hparen : t.kind = .leftParen
          · rw [List.length_cons] at hfuel
            exact reads_group ihPhrases hparen h (by omega)
          · rw [run_primary_of_not_literal h (by simpa using hliteral),
              h.choose_of_not_mem (by decide) (by simpa using hparen), h.blame]
            refine .misfit [] rfl fun stack _ => ?_
            have hunary : t.kind.isUnary ≠ true := by
              intro hunary
              exact hsign t rfl (mem_of_isUnary hunary)
            simp [Precedence.run, hliteral, hunary, hparen]

theorem reads_phrases_links (toks : List Token) (stop : Token) (fuel : Nat) :
    ReadsPhrases toks stop fuel ∧ ReadsLinks toks stop fuel := by
  -- Both at once: a phrase calls the repetitions of its tier, and these call phrases.
  induction fuel with
  | zero =>
      constructor
      · intro p i rest h hfuel hsign
        have hrank : p.rank ≤ 6 := by
          rcases p with (_ | _ | _ | _) | _ | _ <;> decide
        omega
      · intro tier left i rest h hrest hfuel
        omega
  | succ fuel ih =>
      obtain ⟨ihPhrases, ihLinks⟩ := ih
      constructor
      · intro p i rest h hfuel hsign
        cases p with
        | tier tier => exact reads_tier ihPhrases ihLinks tier h hfuel
        | unary =>
            simp only [Phrase.rank] at hfuel
            by_cases hop : ∀ t ∈ rest.head?, t.kind ∉ [Kind.bang, .minus]
            · rw [phrase, h.choose_of_not_mem (by decide) hop]
              exact (ihPhrases .primary i rest h (by simp only [Phrase.rank]; omega)
                fun _ => hop).unary
            · push Not at hop
              obtain ⟨op, hhead, hop⟩ := hop
              obtain ⟨rest, rfl⟩ := List.head?_eq_some_iff.mp hhead
              rw [List.length_cons] at hfuel
              exact reads_sign ihPhrases hop h (by omega)
        | primary => exact reads_primary ihPhrases h hfuel (hsign rfl)
      · intro tier left i rest h hrest hfuel
        exact reads_links ihPhrases ihLinks tier left h hrest hfuel

end Productions

end Descent

end Scriptlet
