import Scriptlet.Proofs.Tree.Steering

/-!
# Tokens blamed again

The tokens that failed attempts blame never go back in the list.  A token is
blamed again only by an attempt that starts at it, and reading only goes on there
if it can start a statement; so it is blamed twice at most
(`Program.ofTokens_blames_again`).
-/

namespace Scriptlet

namespace Recovery

open Grammar

structure Blame where
  first : Nat
  place : Nat
  misfit : Misfit

def Passage.blame? : Passage → Option Blame
  | statement _ _ _ => none
  | failure first blamed misfit => some ⟨first, blamed, misfit⟩

private theorem Passage.misfit?_eq : misfit? = fun p => p.blame?.map Blame.misfit := by
  funext p
  cases p <;> rfl

structure Blame.Placed (toks : List Token) (s : Nat) (b : Blame) : Prop where
  behind : s ≤ b.first
  le : b.first ≤ b.place
  token : toks[b.place]? = some b.misfit.token
  start : kindAt toks b.first ≠ some .eof
  blamed : ¬ Begins (span toks b.first (b.place + 1))

theorem Blame.Placed.mono {toks : List Token} {s s' : Nat} {b : Blame} (h : b.Placed toks s')
    (hle : s ≤ s') : b.Placed toks s :=
  { h with behind := hle.trans h.behind }

theorem Segmented.placed {toks : List Token} {s : Nat} {passages : List Passage}
    (h : Segmented toks s passages) :
    ∀ b ∈ passages.filterMap Passage.blame?, b.Placed toks s := by
  induction h with
  | done hend => simp
  | statement hlast hstatement rest ih =>
      intro b hb
      have hle := hlast.1.1
      exact (ih b hb).mono (by omega)
  | failure hstart hle htoken hopen hblamed hsuits hresume rest ih =>
      intro b hb
      have hpassed := hresume.1.1
      rcases List.mem_cons.mp hb with rfl | hlater
      · exact ⟨Nat.le_refl _, hle, htoken, hstart, hblamed⟩
      · exact (ih b hlater).mono (by omega)

/-! ## Two failures -/

/-- What holds of a failure and a later one; the kinds rule most repetitions out. -/
structure Blame.Precedes (toks : List Token) (p q : Blame) : Prop where
  le : p.place ≤ q.place
  before : p.place = q.place → p.first < p.place
  again : p.place = q.place → q.first = q.place
  kind : p.place = q.place →
    ∃ kind, kindAt toks p.place = some kind ∧ kind.startsStatement = true ∧ kind ≠ .kwPrint

private theorem begins_keyword {t : Token} (ht : t.kind = .kwPrint) : Begins [t] := by
  refine ⟨[.ofKind .kwNil, .ofKind .semicolon], .print (.literal .nil), ?_⟩
  have hnil : Derives .primary [.ofKind .kwNil] (.literal .nil) := .nil rfl
  exact .print ht (hnil.weaken (by decide)) rfl

private theorem span_succ {toks : List Token} {i : Nat} {t : Token} (ht : toks[i]? = some t) :
    span toks i (i + 1) = [t] := by
  obtain ⟨hlt, rfl⟩ := List.getElem?_eq_some_iff.mp ht
  rw [span, List.drop_eq_getElem_cons hlt, Nat.add_sub_cancel_left, List.take_succ_cons,
    List.take_zero]

private theorem Blame.Placed.preceded {toks : List Token} {s i j : Nat} {q : Blame}
    (h : q.Placed toks j) (hopen : ∀ t ∈ span toks s i, t.kind ≠ .semicolon)
    (hresume : IsLeast {j | max i (s + 1) ≤ j ∧ Resumes toks j} j) (m : Misfit) :
    Blame.Precedes toks ⟨s, i, m⟩ q := by
  have hpassed := hresume.1.1
  have hbehind := h.behind
  have hle := h.le
  -- A token that is blamed again is the one at which reading goes on.
  have hplace : i = q.place → j = i ∧ q.first = i ∧ s < i := by omega
  have hforward : i ≤ q.place := by omega
  refine ⟨hforward, fun heq => (hplace heq).2.2, ?_, ?_⟩
  · intro heq
    rw [(hplace heq).2.1]
    exact heq
  · intro heq
    obtain ⟨rfl, hfirst, hlt⟩ := hplace heq
    rcases hresume.1.2 with heof | ⟨k, rfl, hsemicolon⟩ | ⟨kind, hkind, hstarts⟩
    · exact absurd (hfirst ▸ heof) h.start
    · obtain ⟨t, ht, hsemicolon⟩ := exists_of_kindAt hsemicolon
      exact absurd hsemicolon (hopen t (mem_span (by omega) (Nat.lt_succ_self k) ht))
    · refine ⟨kind, hkind, hstarts, ?_⟩
      rintro rfl
      obtain ⟨t, ht, hprint⟩ := exists_of_kindAt hkind
      have hblamed := h.blamed
      rw [hfirst, ← heq, span_succ ht] at hblamed
      exact hblamed (begins_keyword hprint)

/-! ## All failures -/

private theorem Segmented.pairwise {toks : List Token} {s : Nat} {passages : List Passage}
    (h : Segmented toks s passages) :
    (passages.filterMap Passage.blame?).Pairwise (Blame.Precedes toks) := by
  induction h with
  | done hend => exact .nil
  | statement hlast hstatement rest ih => exact ih
  | failure hstart hle htoken hopen hblamed hsuits hresume rest ih =>
      exact .cons (fun q hq => (rest.placed q hq).preceded hopen hresume _) ih

section Counts

variable {toks : List Token} {blames : List Blame}
  (hblames : blames.Pairwise (Blame.Precedes toks)) (i : Nat)
include hblames

theorem pairwise_at :
    (blames.filter (·.place == i)).Pairwise fun p q =>
      Blame.Precedes toks p q ∧ p.place = i ∧ q.place = i := by
  have hplace : ∀ b ∈ blames.filter (·.place == i), b.place = i := by simp
  exact (hblames.filter _).imp_of_mem fun hp hq h => ⟨h, hplace _ hp, hplace _ hq⟩

private theorem countP_place_le_two : blames.countP (·.place == i) ≤ 2 := by
  have hpairs := pairwise_at hblames i
  rw [List.countP_eq_length_filter]
  match hlist : blames.filter (·.place == i) with
  | [] | [_] | [_, _] => simp [hlist]
  | p :: q :: r :: later =>
      rw [hlist] at hpairs
      simp only [List.pairwise_cons, List.mem_cons] at hpairs
      obtain ⟨hfirst, hp, hq⟩ := hpairs.1 q (.inl rfl)
      obtain ⟨hsecond, -, hr⟩ := hpairs.2.1 r (.inl rfl)
      -- The second failure would start at the token, and before it.
      have hagain := hfirst.again (hp.trans hq.symm)
      have hbefore := hsecond.before (hq.trans hr.symm)
      omega

private theorem countP_place_le_one (hend : kindAt toks i = some .eof) :
    blames.countP (·.place == i) ≤ 1 := by
  have hpairs := pairwise_at hblames i
  rw [List.countP_eq_length_filter]
  match hlist : blames.filter (·.place == i) with
  | [] | [_] => simp [hlist]
  | p :: q :: later =>
      rw [hlist] at hpairs
      simp only [List.pairwise_cons, List.mem_cons] at hpairs
      obtain ⟨hpair, hp, hq⟩ := hpairs.1 q (.inl rfl)
      obtain ⟨kind, hkind, hstarts, -⟩ := hpair.kind (hp.trans hq.symm)
      rw [hp, hend] at hkind
      cases hkind
      cases hstarts

end Counts

end Recovery

namespace Program

open Recovery

private theorem exists_passages (ts : List Token) :
    ∃ passages, Segmented (Tokens.closed ts) 0 passages ∧
      passages.map Passage.result = results ts := by
  obtain ⟨behind, hclosed⟩ := Tokens.exists_closed ts
  rw [hclosed]
  exact exists_segmented [] behind (fun t ht => Tokens.kind_ne_eof_of_mem_body ht)
    (Tokens.kind_stop_ofList ts)

private theorem misfits_eq_blames {ts : List Token} {passages : List Passage}
    (hresults : passages.map Passage.result = results ts) :
    (ofTokens ts).misfits = (passages.filterMap Passage.blame?).map Blame.misfit := by
  rw [misfits_eq, ← hresults, List.filterMap_map, List.map_filterMap, ← Passage.misfit?_eq]
  rfl

/--
The failed attempts blame tokens in order.  A token is blamed twice at most, and
the end token once.  A token that is blamed twice can start a statement and is no
`print`, and the first of both attempts started in front of it.
-/
theorem ofTokens_blames_again (ts : List Token) :
    ∃ (passages : List Passage) (blames : List Blame),
      Segmented (Tokens.closed ts) 0 passages ∧
      (∀ others, Segmented (Tokens.closed ts) 0 others → others = passages) ∧
      passages.map Passage.result = results ts ∧
      blames = passages.filterMap Passage.blame? ∧
      (ofTokens ts).misfits = blames.map Blame.misfit ∧
      (∀ b ∈ blames, (Tokens.closed ts)[b.place]? = some b.misfit.token) ∧
      blames.Pairwise (fun p q => p.place ≤ q.place) ∧
      (∀ i, blames.countP (·.place == i) ≤ 2) ∧
      (∀ i, kindAt (Tokens.closed ts) i = some .eof → blames.countP (·.place == i) ≤ 1) ∧
      blames.Pairwise fun p q => p.place = q.place → p.first < p.place ∧
        ∃ kind, kindAt (Tokens.closed ts) p.place = some kind ∧
          kind.startsStatement = true ∧ kind ≠ .kwPrint := by
  obtain ⟨passages, hsegmented, hresults⟩ := exists_passages ts
  have hpairs := hsegmented.pairwise
  refine ⟨passages, _, hsegmented, fun others hothers => hothers.unique hsegmented, hresults, rfl,
    misfits_eq_blames hresults, fun b hb => (hsegmented.placed b hb).token,
    hpairs.imp (·.le), countP_place_le_two hpairs, countP_place_le_one hpairs, ?_⟩
  exact hpairs.imp fun h heq => ⟨h.before heq, h.kind heq⟩

/-- A keyword behind an open parenthesis is blamed twice: `(class`. -/
example :
    (ofTokens ([Kind.leftParen, .kwClass].map Token.ofKind)).misfits.map (·.token.kind) =
      [.kwClass, .kwClass] := by
  cbv

end Program

end Scriptlet
