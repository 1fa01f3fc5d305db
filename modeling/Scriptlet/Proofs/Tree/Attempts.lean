import Scriptlet.Proofs.Tree.Recognition

/-!
# Attempts at statements

The attempts on a token list unfold one at a time, each successful one is a
statement of the grammar, and a list on which every attempt succeeds is a
program of the grammar (`all_eq_map_parsed_iff`).
-/

namespace Scriptlet.Stmt

open Grammar Precedence

/-! ## One statement -/

theorem close_eq_ok_iff {build : Expr → Stmt} {expected : Expected}
    {parsed : Except Stuck (Expr × List Token)} {s : Stmt} {rest : List Token} :
    close build expected parsed = .ok (s, rest) ↔
      ∃ e t, parsed = .ok (e, t :: rest) ∧ t.kind = .semicolon ∧ s = build e := by
  constructor
  · intro h
    unfold close at h
    split at h
    · simp at h
    · simp at h
    · rename_i e t rest'
      split at h
      · rename_i hsemicolon
        simp only [Except.ok.injEq, Prod.mk.injEq] at h
        obtain ⟨rfl, rfl⟩ := h
        exact ⟨e, t, rfl, hsemicolon, rfl⟩
      · simp at h
  · rintro ⟨e, t, rfl, hsemicolon, rfl⟩
    simp [close, hsemicolon]

private theorem read_expr_of_startsStatement {t : Token} {ts : List Token}
    (h : t.kind.startsStatement = true) :
    Expr.read (t :: ts) = .error ⟨.expression, t :: ts⟩ := by
  unfold Kind.startsStatement at h
  split at h <;> simp_all [Expr.read, run, Token.literal?, Kind.isUnary]

theorem read_eq_ok_iff {ts rest : List Token} {s : Stmt} :
    read ts = .ok (s, rest) ↔ ∃ used, ts = used ++ rest ∧ Statement used s := by
  constructor
  · intro h
    unfold read at h
    split at h
    · simp at h
    · rename_i t ts'
      split at h
      · rename_i hprint
        obtain ⟨e, semicolon, hread, hsemicolon, rfl⟩ := close_eq_ok_iff.mp h
        obtain ⟨used, rfl, hderives, -⟩ := Expr.read_eq_ok_iff.mp hread
        exact ⟨t :: used ++ [semicolon], by simp, .print hprint hderives hsemicolon⟩
      · obtain ⟨e, semicolon, hread, hsemicolon, rfl⟩ := close_eq_ok_iff.mp h
        obtain ⟨used, hused, hderives, -⟩ := Expr.read_eq_ok_iff.mp hread
        exact ⟨used ++ [semicolon], by simp [hused], .expression hderives hsemicolon⟩
  · rintro ⟨used, rfl, hstatement⟩
    cases hstatement with
    | @print keyword semicolon us e hkeyword value hsemicolon =>
        have hread : Expr.read (us ++ semicolon :: rest) = .ok (e, semicolon :: rest) :=
          Expr.read_eq_ok_iff.mpr ⟨us, rfl, value, by simp [hsemicolon, Kind.level?]⟩
        simp [read, hkeyword, hread, close, hsemicolon]
    | @expression semicolon us e value hsemicolon =>
        have hread : Expr.read (us ++ semicolon :: rest) = .ok (e, semicolon :: rest) :=
          Expr.read_eq_ok_iff.mpr ⟨us, rfl, value, by simp [hsemicolon, Kind.level?]⟩
        rw [List.append_assoc, List.singleton_append]
        cases hts : us ++ semicolon :: rest with
        | nil => simp at hts
        | cons t ts =>
            rw [hts] at hread
            have hprint : t.kind ≠ .kwPrint := by
              intro hprint
              rw [read_expr_of_startsStatement (by rw [hprint]; rfl)] at hread
              simp at hread
            simp [read, hprint, hread, close, hsemicolon]

/-! ## What an attempt leaves -/

theorem suffix_of_read_ok {ts rest : List Token} {s : Stmt}
    (h : read ts = .ok (s, rest)) : rest <:+ ts := by
  obtain ⟨used, rfl, -⟩ := read_eq_ok_iff.mp h
  exact List.suffix_append used rest

theorem rest_suffix_of_read_error {ts : List Token} {stuck : Stuck}
    (h : read ts = .error stuck) : stuck.rest <:+ ts := by
  unfold read at h
  split at h
  · simp only [Except.error.injEq] at h
    exact h ▸ List.suffix_refl []
  · rename_i t ts'
    split at h
    · rw [close_stuck h]
      exact (remainder_run .due [] ts').trans (List.suffix_cons t ts')
    · rw [close_stuck h]
      exact remainder_run .due [] (t :: ts')

theorem resume_suffix (start rest : List Token) : resume start rest <:+ rest := by
  unfold resume
  split
  · exact skip_suffix rest
  · split
    · exact List.suffix_refl []
    · split
      · exact List.suffix_cons _ _
      · exact (skip_suffix _).trans (List.suffix_cons _ _)

theorem suffix_of_read_error {ts : List Token} {stuck : Stuck}
    (h : read ts = .error stuck) : resume ts stuck.rest <:+ ts :=
  (resume_suffix ts stuck.rest).trans (rest_suffix_of_read_error h)

end Scriptlet.Stmt

namespace Scriptlet.Attempt

open Grammar

/-! ## All statements -/

private theorem allFrom_of_read_ok (done : List Attempt) {t : Token}
    {ts after : List Token} {s : Stmt} (h : Stmt.read (t :: ts) = .ok (s, after)) :
    allFrom done (t :: ts) = allFrom (.parsed s :: done) after := by
  rw [allFrom]
  split <;> simp_all

private theorem allFrom_of_read_error (done : List Attempt) {t : Token}
    {ts : List Token} {stuck : Stuck} (h : Stmt.read (t :: ts) = .error stuck) :
    allFrom done (t :: ts) =
      allFrom (.failed stuck :: done) (Stmt.resume (t :: ts) stuck.rest) := by
  rw [allFrom]
  split <;> simp_all

theorem allFrom_eq (done : List Attempt) (ts : List Token) :
    allFrom done ts = done.reverse ++ all ts := by
  induction hn : ts.length using Nat.strongRecOn generalizing done ts with
  | ind n ih =>
      subst hn
      cases ts with
      | nil => simp [all, allFrom]
      | cons t ts =>
          cases hread : Stmt.read (t :: ts) with
          | ok parsed =>
              obtain ⟨s, after⟩ := parsed
              have hshort := Stmt.length_of_read_ok hread
              rw [all, allFrom_of_read_ok done hread, allFrom_of_read_ok [] hread,
                ih _ hshort _ _ rfl, ih _ hshort [.parsed s] _ rfl]
              simp
          | error stuck =>
              have hshort := Stmt.length_resume_lt hread
              rw [all, allFrom_of_read_error done hread, allFrom_of_read_error [] hread,
                ih _ hshort _ _ rfl, ih _ hshort [.failed stuck] _ rfl]
              simp

@[simp] theorem all_nil : all [] = [] := by simp [all, allFrom]

theorem all_of_read_ok {ts after : List Token} {s : Stmt}
    (h : Stmt.read ts = .ok (s, after)) : all ts = .parsed s :: all after := by
  cases ts with
  | nil => simp [Stmt.read] at h
  | cons t ts =>
      rw [all, allFrom_of_read_ok [] h, allFrom_eq]
      rfl

theorem all_of_read_error {t : Token} {ts : List Token} {stuck : Stuck}
    (h : Stmt.read (t :: ts) = .error stuck) :
    all (t :: ts) = .failed stuck :: all (Stmt.resume (t :: ts) stuck.rest) := by
  rw [all, allFrom_of_read_error [] h, allFrom_eq]
  rfl

def ofOutcome : Except Stuck (Stmt × List Token) → Attempt
  | .ok (s, _) => .parsed s
  | .error stuck => .failed stuck

theorem exists_read_of_mem {ts : List Token} {a : Attempt} (h : a ∈ all ts) :
    ∃ start, start <:+ ts ∧ start ≠ [] ∧ ofOutcome (Stmt.read start) = a := by
  induction hn : ts.length using Nat.strongRecOn generalizing ts with
  | ind n ih =>
      subst hn
      cases ts with
      | nil => simp at h
      | cons t ts =>
          cases hread : Stmt.read (t :: ts) with
          | ok parsed =>
              obtain ⟨s, after⟩ := parsed
              rw [all_of_read_ok hread, List.mem_cons] at h
              rcases h with rfl | hlater
              · exact ⟨t :: ts, List.suffix_refl _, by simp, by rw [hread, ofOutcome]⟩
              · obtain ⟨start, hstart, hstarted⟩ :=
                  ih _ (Stmt.length_of_read_ok hread) hlater rfl
                exact ⟨start, hstart.trans (Stmt.suffix_of_read_ok hread), hstarted⟩
          | error stuck =>
              rw [all_of_read_error hread, List.mem_cons] at h
              rcases h with rfl | hlater
              · exact ⟨t :: ts, List.suffix_refl _, by simp, by rw [hread, ofOutcome]⟩
              · obtain ⟨start, hstart, hstarted⟩ :=
                  ih _ (Stmt.length_resume_lt hread) hlater rfl
                exact ⟨start, hstart.trans (Stmt.suffix_of_read_error hread), hstarted⟩

theorem exists_read_of_failed_mem {ts : List Token} {stuck : Stuck}
    (h : .failed stuck ∈ all ts) :
    ∃ start, start <:+ ts ∧ start ≠ [] ∧ Stmt.read start = .error stuck := by
  obtain ⟨start, hsuffix, hne, hread⟩ := exists_read_of_mem h
  refine ⟨start, hsuffix, hne, ?_⟩
  cases hstart : Stmt.read start with
  | ok parsed =>
      rw [hstart] at hread
      cases hread
  | error stuck' =>
      rw [hstart] at hread
      cases hread
      rfl

theorem exists_statement_of_parsed_mem {ts : List Token} {s : Stmt}
    (h : .parsed s ∈ all ts) : ∃ used, used <:+: ts ∧ Statement used s := by
  obtain ⟨start, hsuffix, -, hread⟩ := exists_read_of_mem h
  cases hstart : Stmt.read start with
  | ok parsed =>
      rw [hstart] at hread
      cases hread
      obtain ⟨used, rfl, hstatement⟩ := Stmt.read_eq_ok_iff.mp hstart
      exact ⟨used, (List.prefix_append used _).isInfix.trans hsuffix.isInfix, hstatement⟩
  | error stuck =>
      rw [hstart] at hread
      cases hread

/-- Every attempt succeeds exactly on the programs of the grammar. -/
theorem all_eq_map_parsed_iff {ts : List Token} {stmts : List Stmt} :
    all ts = stmts.map .parsed ↔ Statements ts stmts := by
  constructor
  · intro h
    induction stmts generalizing ts with
    | nil =>
        cases ts with
        | nil => exact .nil
        | cons t ts =>
            cases hread : Stmt.read (t :: ts) with
            | ok parsed => simp [all_of_read_ok hread] at h
            | error stuck => simp [all_of_read_error hread] at h
    | cons s stmts ih =>
        cases ts with
        | nil => simp at h
        | cons t ts =>
            cases hread : Stmt.read (t :: ts) with
            | ok parsed =>
                obtain ⟨s', after⟩ := parsed
                simp only [all_of_read_ok hread, List.map_cons, List.cons.injEq,
                  parsed.injEq] at h
                obtain ⟨rfl, htail⟩ := h
                obtain ⟨used, hused, hstatement⟩ := Stmt.read_eq_ok_iff.mp hread
                rw [hused]
                exact .cons hstatement (ih htail)
            | error stuck => simp [all_of_read_error hread] at h
  · intro h
    induction h with
    | nil => rw [all_nil, List.map_nil]
    | cons first rest ih =>
        rw [all_of_read_ok (Stmt.read_eq_ok_iff.mpr ⟨_, rfl, first⟩), ih, List.map_cons]

end Scriptlet.Attempt
