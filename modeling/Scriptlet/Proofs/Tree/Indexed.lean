import Scriptlet.Proofs.Tree.Concurrence

/-!
# Reading by index gives what reading gives

One turn of the descent is one attempt: it reads a statement, and behind a
failure it goes on to where reading resumes.  So the turns are the attempts on
the tokens in front of the first end token.  They come to an end, and what
stands behind that token does not matter (`Program.ofTokens_indexed`).
-/

namespace Scriptlet

namespace Tokens

variable (ts : List Token)

private theorem ofList_singleton {stop : Token} (h : stop.kind = .eof) :
    ofList [stop] = ⟨[], stop⟩ := by
  simp [ofList, h]

private theorem take_closed :
    (closed ts).take ((ofList ts).body.length + 1) =
      (ofList ts).body ++ [(ofList ts).stop] := by
  obtain ⟨behind, hclosed⟩ := exists_closed ts
  rw [hclosed, List.take_length_add_append, List.take_succ_cons, List.take_zero]

private theorem isLeast_end :
    IsLeast {i | Recovery.kindAt (closed ts) i = some .eof} (ofList ts).body.length := by
  obtain ⟨behind, hclosed⟩ := exists_closed ts
  rw [hclosed]
  constructor
  · exact (Recovery.kindAt_length _ _ _).trans (congrArg some (kind_stop_ofList ts))
  · intro i hi
    obtain ⟨t, ht, hkind⟩ := Recovery.exists_of_kindAt hi
    by_contra hlt
    rw [List.getElem?_append_left (Nat.lt_of_not_le hlt)] at ht
    exact kind_ne_eof_of_mem_body (List.mem_of_getElem? ht) hkind

/-- What stands behind the first end token does not matter. -/
theorem ofList_take : ofList (ts.take ((ofList ts).body.length + 1)) = ofList ts := by
  cases hdrop : ts.dropWhile fun t => t.kind != .eof with
  | nil =>
      have hbody : (ofList ts).body = ts := by simp only [ofList, hdrop]
      rw [hbody, List.take_of_length_le (Nat.le_succ _)]
  | cons stop behind =>
      have hbody : ∀ t ∈ (ofList ts).body, t.kind ≠ .eof :=
        fun t ht => kind_ne_eof_of_mem_body ht
      have hsplit : ts = (ofList ts).body ++ (ofList ts).stop :: behind := by
        have hwhole := List.takeWhile_append_dropWhile (p := fun t : Token => t.kind != .eof)
          (l := ts)
        rw [hdrop] at hwhole
        simp only [ofList, hdrop]
        exact hwhole.symm
      have htake : ts.take ((ofList ts).body.length + 1) =
          (ofList ts).body ++ [(ofList ts).stop] := by
        refine (congrArg (List.take _) hsplit).trans ?_
        rw [List.take_length_add_append, List.take_succ_cons, List.take_zero]
      rw [htake]
      calc
        ofList ((ofList ts).body ++ [(ofList ts).stop]) =
            ⟨(ofList ((ofList ts).body ++ [(ofList ts).stop])).body,
              (ofList ((ofList ts).body ++ [(ofList ts).stop])).stop⟩ := rfl
        _ = ofList ts := by
          rw [body_ofList_append hbody, stop_ofList_append hbody (List.cons_ne_nil _ _),
            ofList_singleton (kind_stop_ofList ts),
            List.append_nil]

end Tokens

namespace Descent

open Grammar Precedence

def Result.ofRead {α : Type} (stop : Token) (last : Nat) :
    Except Stuck (α × List Token) → Result α
  | .ok (a, left) => .done a (last - left.length)
  | .error stuck => .misfit (Misfit.ofStuck stop stuck) (last - stuck.rest.length)

section Programs

variable {toks rest : List Token} {stop : Token} {fuel i : Nat}

theorem run_expression (h : Ahead toks i rest stop) (hfuel : 6 * rest.length + 6 ≤ fuel) :
    (phrase fuel .expression).run toks i = .ofRead stop (i + rest.length) (Expr.read rest) := by
  have hreads := (reads_phrases_links toks stop fuel).1 .expression i rest h
    (by simp only [Phrase.rank_tier, Tier.rank]; omega) (by simp)
  generalize (phrase fuel .expression).run toks i = o at hreads
  cases hreads with
  | @done used left e split machine loose =>
      subst split
      rw [Expr.read, machine [] trivial, run_ready_nil e (Nat.lt_one_iff.mp loose),
        Result.ofRead, List.length_append, ← Nat.add_assoc, Nat.add_sub_cancel]
  | @misfit used left expected split machine =>
      subst split
      rw [Expr.read, machine [] trivial, Result.ofRead, List.length_append, ← Nat.add_assoc,
        Nat.add_sub_cancel]

theorem run_closed (h : Ahead toks i rest stop) (hfuel : 6 * rest.length + 6 ≤ fuel)
    (build : Expr → Stmt) (expected : Expected) :
    (do
      let e ← phrase fuel .expression
      let _ ← consume .semicolon expected
      return build e : Step Stmt).run toks i =
      .ofRead stop (i + rest.length) (Stmt.close build expected (Expr.read rest)) := by
  have hexpression := run_expression h hfuel
  cases hread : Expr.read rest with
  | error stuck =>
      rw [hread, Result.ofRead] at hexpression
      rw [Step.run_bind_of_misfit hexpression]
      rfl
  | ok result =>
      obtain ⟨e, left⟩ := result
      rw [hread, Result.ofRead] at hexpression
      rw [Step.run_bind_of_done hexpression]
      obtain ⟨used, rfl, -⟩ := Expr.read_eq_ok_iff.mp hread
      have hahead := h.drop used
      rw [List.length_append, ← Nat.add_assoc, Nat.add_sub_cancel]
      cases left with
      | nil =>
          rw [Step.run_bind_of_misfit (hahead.consume_of_ne (by decide) (by simp))]
          rfl
      | cons t left =>
          by_cases ht : t.kind = .semicolon
          · rw [Step.run_bind_of_done (hahead.consume_of_eq (by decide) ht), Stmt.close, if_pos ht,
              Step.run_pure, Result.ofRead]
            congr 1
            simp only [List.length_cons]
            omega
          · rw [Step.run_bind_of_misfit (hahead.consume_of_ne (by decide) (by simpa using ht)),
              Stmt.close, if_neg ht, Result.ofRead, Nat.add_sub_cancel]

private theorem run_statement (h : Ahead toks i rest stop) (hfuel : 6 * rest.length + 6 ≤ fuel) :
    (statement fuel).run toks i = .ofRead stop (i + rest.length) (Stmt.read rest) := by
  cases rest with
  | nil =>
      rw [statement, h.choose_of_not_mem (by decide) (by simp), run_closed h hfuel]
      rfl
  | cons t rest =>
      by_cases hprint : t.kind = .kwPrint
      · rw [List.length_cons] at hfuel ⊢
        rw [statement, h.choose_of_mem (by decide) (by simp [hprint]),
          run_closed h.tail (by omega), Stmt.read, if_pos hprint, Nat.add_assoc, Nat.add_comm 1]
      · rw [statement, h.choose_of_not_mem (by decide) (by simpa using hprint),
          run_closed h hfuel, Stmt.read, if_neg hprint]

/-! ### Resuming -/

theorem run_skip_of_semicolon {t : Token} (h : Ahead toks i (t :: rest) stop)
    (ht : t.kind = .semicolon) : (skip (fuel + 1)).run toks (i + 1) = .done () (i + 1) := by
  have hend := Step.run_isAtEnd h.tail.getElem?
  rw [skip, Step.run_bind_of_done hend]
  cases rest with
  | nil =>
      rw [if_pos (by simpa using h.eof)]
      rfl
  | cons u rest =>
      rw [if_neg (by simpa using h.tail.body u List.mem_cons_self),
        Step.run_bind_of_done h.previous, if_pos (by simpa using ht)]
      rfl

theorem run_skip {u : Token} (h : Ahead toks i rest stop) (hprevious : toks[i - 1]? = some u)
    (hu : u.kind ≠ .semicolon) (hfuel : rest.length + 1 ≤ fuel) :
    (skip fuel).run toks i = .done () (i + rest.length - (Stmt.skip rest).length) := by
  induction rest generalizing i u fuel with
  | nil =>
      obtain ⟨fuel, rfl⟩ := Nat.exists_eq_add_of_le' hfuel
      rw [List.length_nil, Nat.zero_add, skip, Step.run_bind_of_done (Step.run_isAtEnd h.getElem?),
        if_pos (by simpa using h.eof)]
      rfl
  | cons t rest ih =>
      obtain ⟨fuel, rfl⟩ := Nat.exists_eq_add_of_le' hfuel
      rw [List.length_cons, ← Nat.add_assoc, skip,
        Step.run_bind_of_done (Step.run_isAtEnd h.getElem?),
        if_neg (by simpa using h.body t List.mem_cons_self),
        Step.run_bind_of_done (Step.run_previous hprevious), if_neg (by simpa using hu),
        Step.run_bind_of_done (Step.run_peek h.getElem?), List.headD_cons, Stmt.skip]
      by_cases hstart : t.kind.startsStatement = true
      · rw [if_pos hstart, if_pos hstart, Step.run_pure, List.length_cons, ← Nat.add_assoc,
          Nat.add_sub_add_right, Nat.add_sub_cancel]
      · rw [if_neg hstart, if_neg hstart, Step.run_bind_of_done h.advance]
        by_cases ht : t.kind = .semicolon
        · rw [if_pos ht, ← Nat.add_assoc fuel, run_skip_of_semicolon h ht]
          congr 1
          omega
        · rw [if_neg ht, ih h.tail h.getElem? ht (Nat.le_add_left _ _)]
          congr 2
          omega

theorem run_synchronize {first : Nat} {front : List Token}
    (h : Ahead toks first (front ++ rest) stop) (hfront : ∀ t ∈ front, t.kind ≠ .semicolon)
    (hne : front ++ rest ≠ []) (hfuel : rest.length + 1 ≤ fuel) :
    (synchronize fuel first).run toks (first + front.length) =
      .done () (first + (front ++ rest).length - (Stmt.resume (front ++ rest) rest).length) := by
  rw [synchronize, Step.run_bind_of_done (Step.run_index _ _)]
  rcases front.eq_nil_or_concat with rfl | ⟨front, u, rfl⟩
  · -- The attempt failed at its first token, which is taken before anything is looked at.
    rw [List.nil_append] at h hne ⊢
    obtain ⟨t, rest, rfl⟩ := List.exists_cons_of_ne_nil hne
    obtain ⟨fuel, rfl⟩ := Nat.exists_eq_add_of_le' hfuel
    have hresume : Stmt.resume (t :: rest) (t :: rest) =
        if t.kind = .semicolon then rest else Stmt.skip rest := by
      rw [Stmt.resume, if_neg (Nat.lt_irrefl _)]
    rw [List.length_nil, Nat.add_zero, if_pos (by simp), Step.run_bind_of_done h.advance, hresume,
      ← Nat.add_assoc fuel]
    by_cases ht : t.kind = .semicolon
    · rw [run_skip_of_semicolon h ht, if_pos ht, List.length_cons]
      congr 1
      omega
    · rw [run_skip h.tail h.getElem? ht (by rw [List.length_cons]; omega), if_neg ht,
        List.length_cons]
      congr 2
      omega
  · -- The token in front of the index is no semicolon, so skipping looks at the next one.
    rw [List.concat_eq_append] at h hfront ⊢
    rw [List.append_assoc, List.singleton_append] at h ⊢
    have hahead := h.drop front
    have hresume : Stmt.resume (front ++ u :: rest) rest = Stmt.skip rest := by
      unfold Stmt.resume
      exact if_pos (by
        rw [List.length_append, List.length_cons]
        omega)
    have hu := hfront u (by simp)
    have hlength : first + (front ++ [u]).length = first + front.length + 1 := by
      simp [Nat.add_assoc]
    rw [hlength, if_neg (by simp; omega), run_skip hahead.tail hahead.getElem? hu hfuel, hresume]
    congr 2
    simp only [List.length_append, List.length_cons]
    omega

/-! ### Turns -/

/-- The turns lead from one index to another, each by at least one token. -/
inductive Advances : Nat → List Turn → Nat → Prop
  | nil (i : Nat) : Advances i [] i
  | cons {t : Turn} {later : List Turn} {last : Nat} (step : t.first < t.last)
      (rest : Advances t.last later last) : Advances t.first (t :: later) last

def turnOf (stop : Token) (last : Nat) (rest : List Token) : Turn :=
  match Stmt.read rest with
  | .ok (s, after) => ⟨last - rest.length, last - after.length, .inl s⟩
  | .error stuck =>
    ⟨last - rest.length, last - (Stmt.resume rest stuck.rest).length,
      .inr (Misfit.ofStuck stop stuck)⟩

private theorem run_turn (h : Ahead toks i rest stop) (hne : rest ≠ [])
    (hfuel : 6 * rest.length + 6 ≤ fuel) :
    (turn fuel).run toks i =
      .done (turnOf stop (i + rest.length) rest) (turnOf stop (i + rest.length) rest).last := by
  have hstatement := run_statement h hfuel
  rw [turn, Step.run_bind_of_done (Step.run_index _ _), turnOf, Nat.add_sub_cancel]
  cases hread : Stmt.read rest with
  | ok result =>
      obtain ⟨s, after⟩ := result
      rw [hread] at hstatement
      rw [Step.run_bind_of_done (Step.run_caught_of_done hstatement)]
      rfl
  | error stuck =>
      rw [hread] at hstatement
      obtain ⟨front, hsplit, hfailure⟩ := Stmt.exists_failure hread
      rw [hsplit] at h hne
      have hlength : rest.length = front.length + stuck.rest.length := by
        rw [hsplit, List.length_append]
      have hreached : i + rest.length - stuck.rest.length = i + front.length := by omega
      have hsynchronize := run_synchronize h hfailure.unended hne
        (Nat.le_trans (by omega : stuck.rest.length + 1 ≤ 6 * rest.length + 6) hfuel)
      rw [← hsplit, ← hreached] at hsynchronize
      rw [Step.run_bind_of_done (Step.run_caught_of_misfit hstatement), recover,
        Step.run_bind_of_done hsynchronize]
      rfl

private theorem first_turnOf (stop : Token) (last : Nat) (rest : List Token) :
    (turnOf stop last rest).first = last - rest.length := by
  unfold turnOf
  split <;> rfl

structure Turns (stop : Token) (i : Nat) (rest : List Token) (all : List Turn) : Prop where
  run : ∀ toks fuel, Ahead toks i rest stop → 6 * rest.length + 7 ≤ fuel →
    (turns fuel).run toks i = .done all (i + rest.length)
  advances : Advances i all (i + rest.length)
  results : all.map Turn.result = (Attempt.all rest).map (Recovery.resultBefore stop)

theorem Turns.cons {next : List Token} {later : List Turn} (attempt : Attempt)
    (h : Turns stop (i + rest.length - next.length) next later) (hnext : next <:+ rest)
    (hshort : next.length < rest.length)
    (hlast : (turnOf stop (i + rest.length) rest).last = i + rest.length - next.length)
    (hresult : (turnOf stop (i + rest.length) rest).result = Recovery.resultBefore stop attempt)
    (hall : Attempt.all rest = attempt :: Attempt.all next) :
    Turns stop i rest (turnOf stop (i + rest.length) rest :: later) := by
  have hfirst : (turnOf stop (i + rest.length) rest).first = i := by
    rw [first_turnOf, Nat.add_sub_cancel]
  have hend : i + rest.length - next.length + next.length = i + rest.length := by omega
  obtain ⟨hrun, hadvances, hresults⟩ := h
  rw [hend] at hrun hadvances
  constructor
  · intro toks fuel hahead hfuel
    obtain ⟨fuel, rfl⟩ := Nat.exists_eq_add_of_le' (Nat.le_trans (Nat.le_add_left 1 _) hfuel)
    obtain ⟨t, rest, rfl⟩ := List.exists_cons_of_length_pos (Nat.zero_lt_of_lt hshort)
    have hturn := run_turn hahead (List.cons_ne_nil t rest) (Nat.le_of_succ_le_succ hfuel)
    rw [hlast] at hturn
    rw [turns, Step.run_bind_of_done (Step.run_isAtEnd hahead.getElem?),
      if_neg (by simpa using hahead.body t List.mem_cons_self), Step.run_bind_of_done hturn,
      Step.run_bind_of_done (hrun toks fuel (hahead.suffix hnext) (by omega))]
    rfl
  · have hsteps : Advances (turnOf stop (i + rest.length) rest).first
        (turnOf stop (i + rest.length) rest :: later) (i + rest.length) := by
      refine .cons ?_ (by rwa [hlast])
      rw [hfirst, hlast]
      omega
    rwa [hfirst] at hsteps
  · rw [List.map_cons, hresult, hresults, hall, List.map_cons]

/-- Reading by index makes the attempts, one turn for each. -/
theorem exists_turns (rest : List Token) (stop : Token) (i : Nat) :
    ∃ all, Turns stop i rest all := by
  induction rest using Attempt.reading_induction generalizing i with
  | nil =>
      refine ⟨[], fun toks fuel h hfuel => ?_, .nil i, by simp⟩
      obtain ⟨fuel, rfl⟩ := Nat.exists_eq_add_of_le' (Nat.le_trans (Nat.le_add_left 1 _) hfuel)
      rw [turns, Step.run_bind_of_done (Step.run_isAtEnd h.getElem?),
        if_pos (by simpa using h.eof)]
      rfl
  | @parsed ts after s hread ih =>
      obtain ⟨later, hlater⟩ := ih (i + ts.length - after.length)
      exact ⟨_, hlater.cons (.parsed s) (Stmt.suffix_of_read_ok hread)
        (Stmt.length_of_read_ok hread) (by rw [turnOf, hread]) (by rw [turnOf, hread]; rfl)
        (Attempt.all_of_read_ok hread)⟩
  | @failed t ts stuck hread ih =>
      obtain ⟨later, hlater⟩ :=
        ih (i + (t :: ts).length - (Stmt.resume (t :: ts) stuck.rest).length)
      exact ⟨_, hlater.cons (.failed stuck) (Stmt.suffix_of_read_error hread)
        (Stmt.length_resume_lt hread) (by rw [turnOf, hread]) (by rw [turnOf, hread]; rfl)
        (Attempt.all_of_read_error hread)⟩

theorem run_whole (h : Ahead toks i rest stop) (hfuel : 6 * rest.length + 6 ≤ fuel) :
    (whole fuel).run toks i =
      match Expr.read rest with
      | .ok (e, []) => .done e (i + rest.length)
      | .ok (_, t :: left) => .misfit ⟨t, .endOfExpression⟩ (i + rest.length - (left.length + 1))
      | .error stuck =>
        .misfit (Misfit.ofStuck stop stuck) (i + rest.length - stuck.rest.length) := by
  have hexpression := run_expression h hfuel
  rw [whole]
  cases hread : Expr.read rest with
  | error stuck =>
      rw [hread] at hexpression
      exact Step.run_bind_of_misfit hexpression
  | ok result =>
      obtain ⟨e, left⟩ := result
      rw [hread] at hexpression
      rw [Step.run_bind_of_done hexpression]
      obtain ⟨used, rfl, -⟩ := Expr.read_eq_ok_iff.mp hread
      have hahead := h.suffix (List.suffix_append used left)
      rw [Step.run_bind_of_done (Step.run_isAtEnd hahead.getElem?)]
      cases left with
      | nil =>
          rw [if_pos (by simpa using h.eof)]
          rfl
      | cons t left =>
          rw [if_neg (by simpa using hahead.body t List.mem_cons_self), hahead.blame]
          rfl

end Programs

end Descent

namespace Program

open Descent

theorem ahead_of_initial (ts : List Token) {toks : List Token}
    (h : (Tokens.closed ts).take ((Tokens.ofList ts).body.length + 1) <+: toks) :
    Ahead toks 0 (Tokens.ofList ts).body (Tokens.ofList ts).stop := by
  rw [Tokens.take_closed] at h
  obtain ⟨behind, rfl⟩ := h
  refine ⟨⟨behind, by simp⟩, fun t ht => Tokens.kind_ne_eof_of_mem_body ht,
    Tokens.kind_stop_ofList ts⟩

private theorem exists_answer (ts : List Token) :
    ∃ answer : Result Expr,
      (∀ toks fuel, Ahead toks 0 (Tokens.ofList ts).body (Tokens.ofList ts).stop →
        6 * (Tokens.ofList ts).body.length + 6 ≤ fuel → (whole fuel).run toks 0 = answer) ∧
      (∀ e, Expr.ofTokens ts = .ok e → answer = .done e (Tokens.ofList ts).body.length) ∧
      ∀ m, Expr.ofTokens ts = .error m →
        ∃ i ≤ (Tokens.ofList ts).body.length,
          (Tokens.closed ts)[i]? = some m.token ∧ answer = .misfit m i := by
  have hclosed := ahead_of_initial ts (List.take_prefix _ (Tokens.closed ts))
  refine ⟨_, fun toks fuel h hfuel => run_whole h hfuel, ?_, ?_⟩
  · intro e he
    rw [Expr.ofTokens] at he
    cases hread : Expr.read (Tokens.ofList ts).body with
    | error stuck =>
        rw [hread] at he
        cases he
    | ok result =>
        obtain ⟨tree, left⟩ := result
        rw [hread] at he
        cases left with
        | nil =>
            cases he
            rw [Nat.zero_add]
        | cons t left => cases he
  · intro m hm
    rw [Expr.ofTokens] at hm
    have hremainder := Precedence.remainder_run .due [] (Tokens.ofList ts).body
    cases hread : Expr.read (Tokens.ofList ts).body with
    | error stuck =>
        rw [Expr.read] at hread
        rw [hread] at hremainder
        rw [Expr.read, hread] at hm
        cases hm
        refine ⟨_, ?_, (hclosed.suffix hremainder).getElem?, rfl⟩
        omega
    | ok result =>
        obtain ⟨tree, left⟩ := result
        rw [Expr.read] at hread
        rw [hread] at hremainder
        rw [Expr.read, hread] at hm
        cases left with
        | nil => cases hm
        | cons t left =>
            cases hm
            refine ⟨_, ?_, (hclosed.suffix hremainder).getElem?, rfl⟩
            omega

/--
Reading by index, attempt after attempt or for one expression, comes to an end
on every token list, looks at no index without a token and never passes the
first end token.  Each attempt goes on by at least one token.  The statements,
the syntax errors and the tree are those that reading gives, and what stands
behind the first end token changes none of them.
-/
theorem ofTokens_indexed (ts : List Token) :
    ∃ (stop : Nat) (all : List Descent.Turn) (answer : Result Expr),
      IsLeast {i | Recovery.kindAt (Tokens.closed ts) i = some .eof} stop ∧
      (∀ toks, (Tokens.closed ts).take (stop + 1) <+: toks →
        Confined toks stop ∧
          ∀ fuel, 7 * (stop + 1) ≤ fuel →
            (turns fuel).run toks 0 = .done all stop ∧ (whole fuel).run toks 0 = answer) ∧
      Advances 0 all stop ∧
      (ofTokens ts).stmts = all.filterMap (fun t => t.result.getLeft?) ∧
      (ofTokens ts).misfits = all.filterMap (fun t => t.result.getRight?) ∧
      (∀ e, Expr.ofTokens ts = .ok e → answer = .done e stop) ∧
      (∀ m, Expr.ofTokens ts = .error m →
        ∃ i ≤ stop, (Tokens.closed ts)[i]? = some m.token ∧ answer = .misfit m i) ∧
      ofTokens (ts.take (stop + 1)) = ofTokens ts ∧
      Expr.ofTokens (ts.take (stop + 1)) = Expr.ofTokens ts := by
  have hleast := Tokens.isLeast_end ts
  obtain ⟨all, hrun, hadvances, hresults⟩ :=
    exists_turns (Tokens.ofList ts).body (Tokens.ofList ts).stop 0
  rw [Nat.zero_add] at hadvances
  obtain ⟨answer, hanswer, htree, hfailure⟩ := exists_answer ts
  refine ⟨_, all, answer, hleast, fun toks htoks => ⟨confined ?_, fun fuel hfuel => ?_⟩, hadvances,
    ?_, ?_, htree, hfailure, ?_, ?_⟩
  · have hend := (ahead_of_initial ts htoks).suffix (List.nil_suffix)
    rw [Nat.zero_add, List.length_nil, Nat.sub_zero] at hend
    exact (congrArg (Option.map Token.kind) hend.getElem?).trans (congrArg some hend.eof)
  · have hahead := ahead_of_initial ts htoks
    have hturns := hrun toks fuel hahead (by omega)
    rw [Nat.zero_add] at hturns
    exact ⟨hturns, hanswer toks fuel hahead (by omega)⟩
  · rw [stmts_ofTokens, Recovery.stmt?_eq (Tokens.ofList ts).stop, ← List.filterMap_map,
      ← hresults, List.filterMap_map]
    rfl
  · rw [misfits_ofTokens, List.map_filterMap, Recovery.stuck?_eq, ← List.filterMap_map,
      ← hresults, List.filterMap_map]
    rfl
  · rw [ofTokens, Tokens.ofList_take, ofTokens]
  · rw [Expr.ofTokens, Tokens.ofList_take, Expr.ofTokens]

end Program

end Scriptlet
