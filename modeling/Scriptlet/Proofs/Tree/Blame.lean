import Scriptlet.Proofs.Tree.Isolation

/-!
# Blamed tokens

Every attempt starts where the one before it stopped or further on, and a
failed one blames a token it has not passed.  So the rest of the tokens behind
the blamed one only shrinks from failure to failure (`pairwise_rest_all`), and
if lines never decrease along the tokens, they do not along the failures
(`pairwise_line_misfits`).
-/

namespace Scriptlet

namespace Attempt

/-- Induction along the attempts on a token list. -/
theorem reading_induction {motive : List Token → Prop} (ts : List Token)
    (nil : motive [])
    (parsed : ∀ {ts after s}, Stmt.read ts = .ok (s, after) → motive after → motive ts)
    (failed : ∀ {t ts stuck}, Stmt.read (t :: ts) = .error stuck →
      motive (Stmt.resume (t :: ts) stuck.rest) → motive (t :: ts)) : motive ts := by
  induction hn : ts.length using Nat.strongRecOn generalizing ts with
  | ind n ih =>
      subst hn
      cases ts with
      | nil => exact nil
      | cons t ts =>
          cases hread : Stmt.read (t :: ts) with
          | ok result => exact parsed hread (ih _ (Stmt.length_of_read_ok hread) _ rfl)
          | error stuck => exact failed hread (ih _ (Stmt.length_resume_lt hread) _ rfl)

theorem rest_suffix_of_mem {ts : List Token} {stuck : Stuck}
    (h : stuck ∈ (all ts).filterMap stuck?) : stuck.rest <:+ ts := by
  obtain ⟨a, ha, hstuck⟩ := List.mem_filterMap.mp h
  cases a with
  | parsed s => cases hstuck
  | failed stuck' =>
      cases hstuck
      obtain ⟨start, hsuffix, -, hread⟩ := exists_read_of_failed_mem ha
      exact (Stmt.rest_suffix_of_read_error hread).trans hsuffix

/-- A later failure has at most the tokens left that an earlier one had. -/
theorem pairwise_rest_all (ts : List Token) :
    ((all ts).filterMap stuck?).Pairwise fun a b => b.rest <:+ a.rest := by
  induction ts using reading_induction with
  | nil => simp
  | parsed hread ih => rwa [all_of_read_ok hread, List.filterMap_cons_none rfl]
  | failed hread ih =>
      rw [all_of_read_error hread]
      refine List.pairwise_cons.mpr ⟨?_, ih⟩
      intro stuck hstuck
      exact (rest_suffix_of_mem hstuck).trans (Stmt.resume_suffix _ _)

end Attempt

/-! ## Lines -/

private theorem Token.line_headD_le {stop : Token} {early late : List Token}
    (hlines : (early ++ [stop]).Pairwise fun a b => a.line ≤ b.line)
    (h : late <:+ early) : (early.headD stop).line ≤ (late.headD stop).line := by
  cases early with
  | nil =>
      obtain rfl := List.suffix_nil.mp h
      exact Int.le_refl _
  | cons t early =>
      rw [List.cons_append, List.pairwise_cons] at hlines
      have hmem : late.headD stop ∈ t :: (early ++ [stop]) := by
        cases late with
        | nil => simp
        | cons u late =>
            rw [List.headD_cons, ← List.cons_append]
            exact List.mem_append_left _ (h.subset List.mem_cons_self)
      rcases List.mem_cons.mp hmem with heq | hlater
      · exact Int.le_of_eq (congrArg Token.line heq.symm)
      · exact hlines.1 _ hlater

namespace Program

theorem pairwise_line_misfits {ts : List Token}
    (hlines : ((Tokens.ofList ts).body ++ [(Tokens.ofList ts).stop]).Pairwise
      fun a b => a.line ≤ b.line) :
    (ofTokens ts).misfits.Pairwise fun a b => a.token.line ≤ b.token.line := by
  rw [misfits_ofTokens, List.pairwise_map]
  refine (Attempt.pairwise_rest_all _).imp_of_mem ?_
  intro a b ha _ hrest
  apply Token.line_headD_le _ hrest
  have hsuffix := (Attempt.rest_suffix_of_mem ha).sublist
  exact hlines.sublist (hsuffix.append (List.Sublist.refl _))

end Program

end Scriptlet
