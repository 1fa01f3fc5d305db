import Scriptlet.Proofs.Tree.Attempts

/-!
# Errors stay on their side of a statement boundary

Two token lists meet at a statement boundary if the first ends in a semicolon
or the second begins with a token that can start a statement.  Reading never
looks across such a boundary: the machine stops there, a failed attempt
resumes there at the latest, and so the attempts on the concatenation are the
attempts on the parts (`all_append`).
-/

namespace Scriptlet

def Stuck.before (more : List Token) (s : Stuck) : Stuck :=
  ⟨s.expected, s.rest ++ more⟩

def outcomeBefore {α : Type} (more : List Token) :
    Except Stuck (α × List Token) → Except Stuck (α × List Token)
  | .ok (a, rest) => .ok (a, rest ++ more)
  | .error stuck => .error (stuck.before more)

private theorem outcomeBefore_append {α : Type} (ts us : List Token)
    (r : Except Stuck (α × List Token)) :
    outcomeBefore (ts ++ us) r = outcomeBefore us (outcomeBefore ts r) := by
  cases r with
  | ok parsed => simp [outcomeBefore]
  | error stuck => simp [outcomeBefore, Stuck.before]

namespace Precedence

private theorem remainder_outcomeBefore (more : List Token)
    (r : Except Stuck (Expr × List Token)) :
    remainder (outcomeBefore more r) = remainder r ++ more := by
  cases r with
  | ok parsed => rfl
  | error stuck => rfl

/-! ## The machine stops at a boundary -/

/-- No expression contains a token of this kind. -/
def Halts (k : Kind) : Prop := k = .semicolon ∨ k.startsStatement = true

private theorem Halts.run_due {t : Token} (h : Halts t.kind) (stack : List Frame)
    (more : List Token) :
    run .due stack (t :: more) = .error ⟨.expression, t :: more⟩ := by
  rcases h with h | h
  · simp [run, Token.literal?, h, Kind.isUnary]
  · unfold Kind.startsStatement at h
    split at h <;> simp_all [run, Token.literal?, Kind.isUnary]

private theorem Halts.run_ready {t : Token} (h : Halts t.kind) (e : Expr)
    (stack : List Frame) (more : List Token) :
    run (.ready e) stack (t :: more) = finish e stack (t :: more) := by
  rcases h with h | h
  · simp [run, h, Kind.level?]
  · unfold Kind.startsStatement at h
    split at h <;> simp_all [run, Kind.level?]

theorem finish_append (e : Expr) (stack : List Frame) (rest more : List Token) :
    finish e stack (rest ++ more) = outcomeBefore more (finish e stack rest) := by
  unfold finish
  split <;> rfl

/-- What follows a token that halts the machine does not matter to it. -/
theorem run_append {t : Token} (h : Halts t.kind) (state : State)
    (stack : List Frame) (ts more : List Token) :
    run state stack (ts ++ t :: more) =
      outcomeBefore (t :: more) (run state stack ts) := by
  fun_induction run state stack ts with
  | case1 stack => exact h.run_due stack more
  | case2 stack u ts value hvalue ih =>
      rw [List.cons_append, run, hvalue]
      exact ih
  | case3 stack u ts hvalue hunary ih =>
      rw [List.cons_append, run, hvalue]
      simpa [hunary] using ih
  | case4 stack u ts hvalue hunary hparen ih =>
      rw [List.cons_append, run_due_paren hparen]
      exact ih
  | case5 stack u ts hvalue hunary hparen =>
      rw [List.cons_append, run, hvalue]
      simp [hunary, hparen, outcomeBefore, Stuck.before]
  | case6 e stack =>
      rw [List.nil_append, h.run_ready]
      exact finish_append e stack [] (t :: more)
  | case7 e stack u ts n hlevel left stack' hreduce ih =>
      rw [List.cons_append, run, hlevel]
      simpa [hreduce] using ih
  | case8 e stack u ts hlevel hparen inner stack' hreduce ih =>
      rw [List.cons_append, run, hlevel]
      simpa [hparen, hreduce] using ih
  | case9 e stack u ts hlevel hparen inner stack' hopen hreduce =>
      rw [List.cons_append, run, hlevel]
      simp only [hparen, if_true, hreduce]
      exact finish_append inner stack' (u :: ts) (t :: more)
  | case10 e stack u ts hlevel hparen =>
      rw [List.cons_append, run, hlevel]
      simp only [hparen, if_false]
      exact finish_append e stack (u :: ts) (t :: more)

end Precedence

/-! ## Boundaries -/

/-- Between `front` and `more` one statement ends or another one starts. -/
def Boundary (front more : List Token) : Prop :=
  (∃ t, front.getLast? = some t ∧ t.kind = .semicolon) ∨
    ∃ t, more.head? = some t ∧ t.kind.startsStatement = true

namespace Boundary

variable {front rest more : List Token}

theorem of_suffix (h : Boundary front more) (hrest : rest <:+ front)
    (hne : rest ≠ []) : Boundary rest more := by
  obtain ⟨before, rfl⟩ := hrest
  rcases h with ⟨t, ht, hsemicolon⟩ | hstart
  · have hlast := List.getLast?_eq_some_getLast hne
    rw [List.getLast?_append, hlast, Option.some_or] at ht
    exact .inl ⟨t, hlast.trans ht, hsemicolon⟩
  · exact .inr hstart

theorem tail {t : Token} (h : Boundary (t :: rest) more)
    (ht : t.kind ≠ .semicolon) : Boundary rest more := by
  cases rest with
  | nil =>
      rcases h with ⟨u, hu, hsemicolon⟩ | hstart
      · simp only [List.getLast?_singleton, Option.some.injEq] at hu
        exact (ht (hu ▸ hsemicolon)).elim
      · exact .inr hstart
  | cons u rest => exact h.of_suffix (List.suffix_cons t _) (by simp)

theorem exists_halts (h : Boundary front more) :
    (∃ init t, front = init ++ [t] ∧ t.kind = .semicolon) ∨
      ∃ t tail, more = t :: tail ∧ t.kind.startsStatement = true := by
  rcases h with ⟨t, ht, hsemicolon⟩ | ⟨t, ht, hstart⟩
  · obtain ⟨init, rfl⟩ := List.getLast?_eq_some_iff.mp ht
    exact .inl ⟨init, t, rfl, hsemicolon⟩
  · obtain ⟨tail, rfl⟩ := List.head?_eq_some_iff.mp ht
    exact .inr ⟨t, tail, rfl, hstart⟩

/-! ## One attempt -/

theorem read_expr (h : Boundary front more) :
    Expr.read (front ++ more) = outcomeBefore more (Expr.read front) := by
  rcases h.exists_halts with ⟨init, t, rfl, hsemicolon⟩ | ⟨t, tail, rfl, hstart⟩
  · have hhalts : Precedence.Halts t.kind := .inl hsemicolon
    have hall := Precedence.run_append hhalts .due [] init more
    have hfront := Precedence.run_append hhalts .due [] init []
    rw [Expr.read, Expr.read, List.append_assoc, List.singleton_append, hall, hfront,
      ← outcomeBefore_append]
    rfl
  · exact Precedence.run_append (.inr hstart) .due [] front tail

theorem remainder_read_expr (h : Boundary front more) :
    Boundary (Precedence.remainder (Expr.read front)) more := by
  rcases h.exists_halts with ⟨init, t, rfl, hsemicolon⟩ | ⟨t, tail, rfl, hstart⟩
  · have hfront := Precedence.run_append (.inl hsemicolon) .due [] init []
    rw [Expr.read, hfront, Precedence.remainder_outcomeBefore]
    exact .inl ⟨t, by simp, hsemicolon⟩
  · exact .inr ⟨t, rfl, hstart⟩

theorem close_append {build : Expr → Stmt} {expected : Expected}
    {parsed : Except Stuck (Expr × List Token)}
    (h : Boundary (Precedence.remainder parsed) more) :
    Stmt.close build expected (outcomeBefore more parsed) =
      outcomeBefore more (Stmt.close build expected parsed) := by
  cases parsed with
  | error stuck => rfl
  | ok parsed =>
      obtain ⟨e, rest⟩ := parsed
      cases rest with
      | cons t rest =>
          by_cases hsemicolon : t.kind = .semicolon <;>
            simp [outcomeBefore, Stmt.close, hsemicolon, Stuck.before]
      | nil =>
          obtain ⟨init, t, hinit, -⟩ | ⟨t, tail, rfl, hstart⟩ := h.exists_halts
          · simp [Precedence.remainder] at hinit
          · have hsemicolon : t.kind ≠ .semicolon := by
              intro hsemicolon
              simp [hsemicolon, Kind.startsStatement] at hstart
            simp [outcomeBefore, Stmt.close, hsemicolon, Stuck.before]

theorem read_append (h : Boundary front more) (hne : front ≠ []) :
    Stmt.read (front ++ more) = outcomeBefore more (Stmt.read front) := by
  cases front with
  | nil => contradiction
  | cons t ts =>
      rw [List.cons_append, Stmt.read, Stmt.read]
      by_cases hprint : t.kind = .kwPrint
      · have hts := h.tail (by simp [hprint])
        simp only [hprint, if_true, hts.read_expr]
        exact close_append hts.remainder_read_expr
      · simp only [hprint, if_false, ← List.cons_append, h.read_expr]
        exact close_append h.remainder_read_expr

theorem rest_of_read_error {stuck : Stuck} (h : Boundary front more)
    (hread : Stmt.read front = .error stuck) : Boundary stuck.rest more := by
  cases front with
  | nil =>
      simp only [Stmt.read, Except.error.injEq] at hread
      exact hread ▸ h
  | cons t ts =>
      rw [Stmt.read] at hread
      by_cases hprint : t.kind = .kwPrint
      · simp only [hprint, if_true] at hread
        rw [Stmt.close_stuck hread]
        exact (h.tail (by simp [hprint])).remainder_read_expr
      · simp only [hprint, if_false] at hread
        rw [Stmt.close_stuck hread]
        exact h.remainder_read_expr

/-! ## Resuming -/

theorem skip_append (h : Boundary front more) :
    Stmt.skip (front ++ more) = Stmt.skip front ++ more := by
  induction front with
  | nil =>
      obtain ⟨init, t, hinit, -⟩ | ⟨t, tail, rfl, hstart⟩ := h.exists_halts
      · simp at hinit
      · simp [Stmt.skip, hstart]
  | cons t ts ih =>
      rw [List.cons_append, Stmt.skip, Stmt.skip]
      by_cases hstart : t.kind.startsStatement = true
      · simp [hstart]
      · by_cases hsemicolon : t.kind = .semicolon
        · rw [if_neg hstart, if_neg hstart, if_pos hsemicolon, if_pos hsemicolon]
        · simpa [hstart, hsemicolon] using ih (h.tail hsemicolon)

theorem resume_append {start : List Token} (h : Boundary rest more)
    (hne : start ≠ []) :
    Stmt.resume (start ++ more) (rest ++ more) = Stmt.resume start rest ++ more := by
  have hlength : (rest ++ more).length < (start ++ more).length ↔
      rest.length < start.length := by
    simp
  unfold Stmt.resume
  by_cases hshort : rest.length < start.length
  · rw [if_pos hshort, if_pos (hlength.mpr hshort), h.skip_append]
  · rw [if_neg hshort, if_neg (mt hlength.mp hshort)]
    cases rest with
    | nil => exact (hshort (List.length_pos_iff.mpr hne)).elim
    | cons t ts =>
        by_cases hsemicolon : t.kind = .semicolon
        · simp [hsemicolon]
        · simpa [hsemicolon] using (h.tail hsemicolon).skip_append

end Boundary

/-! ## All attempts -/

namespace Attempt

def before (more : List Token) : Attempt → Attempt
  | parsed s => parsed s
  | failed stuck => failed (stuck.before more)

theorem all_append {front more : List Token}
    (h : front = [] ∨ Boundary front more) :
    all (front ++ more) = (all front).map (before more) ++ all more := by
  induction hn : front.length using Nat.strongRecOn generalizing front with
  | ind n ih =>
      subst hn
      cases front with
      | nil => simp
      | cons t ts =>
          have hboundary : Boundary (t :: ts) more := h.resolve_left (by simp)
          have hcut {rest : List Token} (hrest : rest <:+ t :: ts) :
              rest = [] ∨ Boundary rest more := by
            by_cases hne : rest = []
            · exact .inl hne
            · exact .inr (hboundary.of_suffix hrest hne)
          have hne : t :: ts ≠ [] := by simp
          have hread := hboundary.read_append hne
          cases hfront : Stmt.read (t :: ts) with
          | ok parsed =>
              obtain ⟨s, after⟩ := parsed
              rw [hfront, outcomeBefore] at hread
              rw [all_of_read_ok hread, all_of_read_ok hfront,
                ih _ (Stmt.length_of_read_ok hfront)
                  (hcut (Stmt.suffix_of_read_ok hfront)) rfl]
              rfl
          | error stuck =>
              have hresume : Stmt.resume (t :: (ts ++ more)) (stuck.rest ++ more) =
                  Stmt.resume (t :: ts) stuck.rest ++ more :=
                (hboundary.rest_of_read_error hfront).resume_append hne
              rw [hfront, outcomeBefore, List.cons_append] at hread
              rw [List.cons_append, all_of_read_error hread, all_of_read_error hfront,
                Stuck.before, hresume,
                ih _ (Stmt.length_resume_lt hfront)
                  (hcut (Stmt.suffix_of_read_error hfront)) rfl]
              rfl

@[simp] theorem stmt?_before (more : List Token) (a : Attempt) :
    (a.before more).stmt? = a.stmt? := by
  cases a <;> rfl

@[simp] theorem stuck?_before (more : List Token) (a : Attempt) :
    (a.before more).stuck? = a.stuck?.map (Stuck.before more) := by
  cases a <;> rfl

end Attempt

/-! ## Programs -/

theorem Boundary.body {front more : List Token} (h : Boundary front more) :
    Boundary front (Tokens.ofList more).body := by
  rcases h with hsemicolon | ⟨t, ht, hstart⟩
  · exact .inl hsemicolon
  · obtain ⟨tail, rfl⟩ := List.head?_eq_some_iff.mp ht
    have hkind : t.kind ≠ .eof := by
      intro hkind
      simp [hkind, Kind.startsStatement] at hstart
    exact .inr ⟨t, by simp [Tokens.body_ofList, hkind], hstart⟩

namespace Program

theorem stmts_ofTokens (ts : List Token) :
    (ofTokens ts).stmts =
      (Attempt.all (Tokens.ofList ts).body).filterMap Attempt.stmt? := rfl

theorem misfits_ofTokens (ts : List Token) :
    (ofTokens ts).misfits =
      ((Attempt.all (Tokens.ofList ts).body).filterMap Attempt.stuck?).map
        (Misfit.ofStuck (Tokens.ofList ts).stop) := rfl

section Append

variable {front more : List Token} (hfront : ∀ t ∈ front, t.kind ≠ .eof)
include hfront

theorem all_body_append (h : front = [] ∨ Boundary front more) :
    Attempt.all (Tokens.ofList (front ++ more)).body =
      (Attempt.all front).map (Attempt.before (Tokens.ofList more).body) ++
        Attempt.all (Tokens.ofList more).body := by
  rw [Tokens.body_ofList_append hfront]
  exact Attempt.all_append (h.imp_right Boundary.body)

/-- A failure of `front` that ran out of tokens blames what follows it. -/
theorem misfits_append (h : front = [] ∨ Boundary front more) :
    (ofTokens (front ++ more)).misfits =
      ((Attempt.all front).filterMap Attempt.stuck?).map
          (fun stuck => Misfit.ofStuck (Tokens.ofList (front ++ more)).stop
            (stuck.before (Tokens.ofList more).body)) ++
        (ofTokens more).misfits := by
  have htail : ((Attempt.all (Tokens.ofList more).body).filterMap Attempt.stuck?).map
        (Misfit.ofStuck (Tokens.ofList (front ++ more)).stop) =
      (ofTokens more).misfits := by
    by_cases hmore : more = []
    · subst hmore
      simp [misfits_ofTokens, Tokens.ofList]
    · rw [Tokens.stop_ofList_append hfront hmore, misfits_ofTokens]
  rw [misfits_ofTokens, all_body_append hfront h, List.filterMap_append,
    List.map_append, htail, List.filterMap_map]
  congr 1
  have hstuck : Attempt.stuck? ∘ Attempt.before (Tokens.ofList more).body =
      fun a => a.stuck?.map (Stuck.before (Tokens.ofList more).body) :=
    funext fun a => Attempt.stuck?_before _ a
  rw [hstuck, ← List.map_filterMap, List.map_map]
  rfl

theorem misfits_append_of_semicolon
    (h : front = [] ∨ ∃ t, front.getLast? = some t ∧ t.kind = .semicolon) :
    (ofTokens (front ++ more)).misfits =
      (ofTokens front).misfits ++ (ofTokens more).misfits := by
  rw [misfits_append hfront (h.imp_right .inl)]
  congr 1
  rw [misfits_ofTokens, Tokens.body_ofList_of_forall hfront]
  apply List.map_congr_left
  intro stuck hstuck
  obtain ⟨a, ha, hsome⟩ := List.mem_filterMap.mp hstuck
  cases a with
  | parsed s => simp [Attempt.stuck?] at hsome
  | failed stuck' =>
      cases hsome
      obtain ⟨start, hsuffix, hne, hread⟩ := Attempt.exists_read_of_failed_mem ha
      have hboundary : Boundary front [] := by
        rcases h with rfl | hsemicolon
        · simp at ha
        · exact .inl hsemicolon
      have hrest := (hboundary.of_suffix hsuffix hne).rest_of_read_error hread
      rcases hrest.exists_halts with ⟨init, t, hinit, -⟩ | ⟨t, tail, hnil, -⟩
      · cases init <;> simp [Misfit.ofStuck, Stuck.before, hinit]
      · simp at hnil

/--
A broken statement changes neither what is read nor what is reported on the
other side of a statement boundary.  If the boundary is a semicolon, the
reports of the two sides are those of each side alone.
-/
theorem ofTokens_append (h : front = [] ∨ Boundary front more) :
    (ofTokens (front ++ more)).stmts = (ofTokens front).stmts ++ (ofTokens more).stmts ∧
      (ofTokens (front ++ more)).misfits.length =
        (ofTokens front).misfits.length + (ofTokens more).misfits.length ∧
      (ofTokens more).misfits <:+ (ofTokens (front ++ more)).misfits ∧
      ((front = [] ∨ ∃ t, front.getLast? = some t ∧ t.kind = .semicolon) →
        (ofTokens (front ++ more)).records =
          (ofTokens front).records ++ (ofTokens more).records) := by
  have hmisfits := misfits_append hfront h
  refine ⟨?_, ?_, ?_, ?_⟩
  · rw [stmts_ofTokens, all_body_append hfront h, List.filterMap_append,
      List.filterMap_map, stmts_ofTokens, stmts_ofTokens,
      Tokens.body_ofList_of_forall hfront]
    congr 2
    exact funext fun a => Attempt.stmt?_before _ a
  · rw [hmisfits, List.length_append, misfits_ofTokens front,
      Tokens.body_ofList_of_forall hfront]
    simp
  · rw [hmisfits]
    exact List.suffix_append _ _
  · intro hsemicolon
    rw [records, misfits_append_of_semicolon hfront hsemicolon, List.filterMap_append]
    rfl

end Append

/-- A group that is never closed in front of a keyword: `(nil print nil;`. -/
theorem stmts_unclosed_group_append_print :
    (∀ t ∈ [Kind.leftParen, .kwNil].map Token.ofKind, t.kind ≠ .eof) ∧
      Boundary ([Kind.leftParen, .kwNil].map Token.ofKind)
        ([Kind.kwPrint, .kwNil, .semicolon].map Token.ofKind) ∧
      (ofTokens ([Kind.leftParen, .kwNil].map Token.ofKind ++
        [Kind.kwPrint, .kwNil, .semicolon].map Token.ofKind)).stmts =
          [.print (.literal .nil)] := by
  have hfront : ∀ t ∈ [Kind.leftParen, .kwNil].map Token.ofKind, t.kind ≠ .eof := by
    decide
  have hboundary : Boundary ([Kind.leftParen, .kwNil].map Token.ofKind)
      ([Kind.kwPrint, .kwNil, .semicolon].map Token.ofKind) :=
    .inr ⟨.ofKind .kwPrint, rfl, rfl⟩
  refine ⟨hfront, hboundary, ?_⟩
  rw [(ofTokens_append hfront (.inr hboundary)).1]
  cbv

end Program

end Scriptlet
