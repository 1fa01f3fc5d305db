import Scriptlet.Proofs.Tree.Outline
import Scriptlet.Proofs.Tree.Recovery

/-!
# Only kinds steer reading

The kinds of a token list fix where every attempt starts, whether it fails, the
place it blames and what it expects there, and the outlines of the trees that are
read.  Lexemes, payloads and lines only fill these outlines in
(`Program.ofTokens_outlined`).
-/

namespace Scriptlet

/-- What an attempt comes to, with trees and the blamed token by places. -/
inductive Leg where
  | print (tree : Outline)
  | expression (tree : Outline)
  | failure (place : Nat) (expected : Expected)

inductive Leg.Drawn (toks : List Token) : Leg → Stmt ⊕ Misfit → Prop
  | print {outline : Outline} {e : Expr} (tree : outline.Drawn toks e) :
      Drawn toks (.print outline) (.inl (.print e))
  | expression {outline : Outline} {e : Expr} (tree : outline.Drawn toks e) :
      Drawn toks (.expression outline) (.inl (.expression e))
  | failure {i : Nat} {m : Misfit} (htoken : toks[i]? = some m.token) :
      Drawn toks (.failure i m.expected) (.inr m)

/-- The outcome of reading one expression, with the tree and the blamed token by places. -/
inductive Reply where
  | tree (outline : Outline)
  | misfit (place : Nat) (expected : Expected)

inductive Reply.Drawn (toks : List Token) : Reply → Except Misfit Expr → Prop
  | tree {outline : Outline} {e : Expr} (tree : outline.Drawn toks e) :
      Drawn toks (.tree outline) (.ok e)
  | misfit {i : Nat} {m : Misfit} (htoken : toks[i]? = some m.token) :
      Drawn toks (.misfit i m.expected) (.error m)

theorem Misfit.eq_of_getElem? {toks : List Token} {i : Nat} {m m' : Misfit}
    (htoken : toks[i]? = some m.token) (htoken' : toks[i]? = some m'.token)
    (hexpected : m.expected = m'.expected) : m = m' := by
  obtain ⟨token, expected⟩ := m
  obtain ⟨token', expected'⟩ := m'
  cases hexpected
  cases Option.some.inj (htoken.symm.trans htoken')
  rfl

theorem Leg.Drawn.unique {toks : List Token} {leg : Leg} {result result' : Stmt ⊕ Misfit}
    (h : leg.Drawn toks result) (h' : leg.Drawn toks result') : result = result' := by
  cases h with
  | print tree =>
      cases h' with
      | print tree' => rw [tree.unique tree']
  | expression tree =>
      cases h' with
      | expression tree' => rw [tree.unique tree']
  | @failure i m htoken =>
      generalize hexpected : m.expected = expected at h'
      cases h' with
      | failure htoken' => rw [Misfit.eq_of_getElem? htoken htoken' hexpected]

theorem Reply.Drawn.unique {toks : List Token} {reply : Reply} {answer answer' : Except Misfit Expr}
    (h : reply.Drawn toks answer) (h' : reply.Drawn toks answer') : answer = answer' := by
  cases h with
  | tree tree =>
      cases h' with
      | tree tree' => rw [tree.unique tree']
  | @misfit i m htoken =>
      generalize hexpected : m.expected = expected at h'
      cases h' with
      | misfit htoken' => rw [Misfit.eq_of_getElem? htoken htoken' hexpected]

def Reply.ofUpshot (length : Nat) : Precedence.Upshot → Reply
  | .stuck expected i => .misfit i expected
  | .done outline i => if i < length then .misfit i .endOfExpression else .tree outline

theorem Outline.Drawn.append {toks : List Token} {outline : Outline} {e : Expr}
    (h : outline.Drawn toks e) (behind : List Token) : outline.Drawn (toks ++ behind) e := by
  have hplace {i : Nat} {t : Token} (ht : toks[i]? = some t) : (toks ++ behind)[i]? = some t := by
    obtain ⟨hlt, -⟩ := List.getElem?_eq_some_iff.mp ht
    rw [List.getElem?_append_left hlt, ht]
  induction h with
  | nil => exact .nil
  | boolean b => exact .boolean b
  | number htoken hkind => exact .number (hplace htoken) hkind
  | text htoken hkind => exact .text (hplace htoken) hkind
  | unary htoken hkind operand ih => exact .unary (hplace htoken) hkind ih
  | binary first htoken hkind second ihfirst ihsecond =>
      exact .binary ihfirst (hplace htoken) hkind ihsecond
  | grouping inner ih => exact .grouping ih

theorem Misfit.getElem?_ofStuck {toks : List Token} {i : Nat} (hi : i ≤ toks.length)
    (expected : Expected) (stop : Token) (behind : List Token) :
    (toks ++ stop :: behind)[i]? =
      some (Misfit.ofStuck stop ⟨expected, toks.drop i⟩).token := by
  rw [← List.head?_drop, List.drop_append_of_le_length hi]
  cases hdrop : toks.drop i <;> simp [ofStuck]

open Precedence

namespace Stmt

section Steps

variable {kinds : List Kind}

private theorem exists_close (expected : Expected) {i : Nat} (hi : i ≤ kinds.length) :
    ∃ upshot : Upshot, upshot.place ≤ kinds.length ∧ ∀ toks, toks.map Token.kind = kinds →
      ∀ build, ∃ parsed, upshot.Drawn toks parsed ∧
        close build expected (Expr.read (toks.drop i)) = parsed.map (Prod.map build id) := by
  obtain ⟨upshot, hplace, h⟩ := Expr.exists_upshot hi
  cases upshot with
  | stuck wanted j =>
      refine ⟨.stuck wanted j, hplace, ?_⟩
      intro toks hkinds build
      have hupshot := h toks hkinds
      generalize Expr.read (toks.drop i) = parsed at hupshot ⊢
      cases hupshot
      exact ⟨_, .stuck, rfl⟩
  | done outline j =>
      have hread : ∀ toks, toks.map Token.kind = kinds →
          ∃ e, outline.Drawn toks e ∧ Expr.read (toks.drop i) = .ok (e, toks.drop j) := by
        intro toks hkinds
        have hupshot := h toks hkinds
        generalize Expr.read (toks.drop i) = parsed at hupshot ⊢
        cases hupshot with
        | done tree => exact ⟨_, tree, rfl⟩
      change j ≤ kinds.length at hplace
      by_cases hend : j < kinds.length ∧ kinds[j]? = some .semicolon
      · refine ⟨.done outline (j + 1), hend.1, ?_⟩
        intro toks hkinds build
        obtain ⟨e, he, hexpr⟩ := hread toks hkinds
        obtain ⟨t, ht, hkind, hdrop⟩ := exists_drop_eq_cons hkinds hend.1
        have hsemicolon : t.kind = .semicolon :=
          Option.some.inj ((kind_of_getElem? hkinds ht).symm.trans hend.2)
        refine ⟨_, .done he, ?_⟩
        rw [hexpr, hdrop, close, if_pos hsemicolon]
        rfl
      · refine ⟨.stuck expected j, hplace, ?_⟩
        intro toks hkinds build
        obtain ⟨e, he, hexpr⟩ := hread toks hkinds
        refine ⟨_, .stuck, ?_⟩
        rw [hexpr]
        cases hdrop : toks.drop j with
        | nil => rfl
        | cons t rest =>
            have ht : toks[j]? = some t := by rw [← List.head?_drop, hdrop, List.head?_cons]
            have hkind := kind_of_getElem? hkinds ht
            have hlt : j < kinds.length := (List.getElem?_eq_some_iff.mp hkind).1
            have hother : t.kind ≠ .semicolon := by
              intro hsemicolon
              exact hend ⟨hlt, by rw [hkind, hsemicolon]⟩
            rw [close, if_neg hother]
            rfl

theorem exists_skip {i : Nat} (hi : i ≤ kinds.length) :
    ∃ j ≤ kinds.length, ∀ toks : List Token, toks.map Token.kind = kinds →
      skip (toks.drop i) = toks.drop j := by
  induction hn : kinds.length - i generalizing i with
  | zero =>
      refine ⟨i, hi, ?_⟩
      intro toks hkinds
      rw [drop_eq_nil_of_kinds hkinds (by omega), skip]
  | succ n ih =>
      have hlt : i < kinds.length := by omega
      by_cases hstart : kinds[i].startsStatement = true
      · refine ⟨i, hi, ?_⟩
        intro toks hkinds
        obtain ⟨t, -, hkind, hdrop⟩ := exists_drop_eq_cons hkinds hlt
        rw [hdrop, skip, if_pos (hkind ▸ hstart)]
      · by_cases hsemicolon : kinds[i] = .semicolon
        · refine ⟨i + 1, hlt, ?_⟩
          intro toks hkinds
          obtain ⟨t, -, hkind, hdrop⟩ := exists_drop_eq_cons hkinds hlt
          rw [hdrop, skip, if_neg (hkind ▸ hstart), if_pos (hkind ▸ hsemicolon)]
        · obtain ⟨j, hj, h⟩ := ih hlt (by omega)
          refine ⟨j, hj, ?_⟩
          intro toks hkinds
          obtain ⟨t, -, hkind, hdrop⟩ := exists_drop_eq_cons hkinds hlt
          rw [hdrop, skip, if_neg (hkind ▸ hstart), if_neg (hkind ▸ hsemicolon), h toks hkinds]

private theorem resume_of_lt {start rest : List Token} (h : rest.length < start.length) :
    resume start rest = skip rest := by
  unfold resume
  exact if_pos h

private theorem resume_cons_of_not_lt {start rest : List Token} {t : Token}
    (h : ¬ (t :: rest).length < start.length) :
    resume start (t :: rest) = if t.kind = .semicolon then rest else skip rest := by
  unfold resume
  exact if_neg h

private theorem resume_nil (start : List Token) : resume start [] = [] := by
  simp [resume, skip]

private theorem exists_resume (i : Nat) {j : Nat} (hj : j ≤ kinds.length) :
    ∃ k ≤ kinds.length, ∀ toks : List Token, toks.map Token.kind = kinds →
      resume (toks.drop i) (toks.drop j) = toks.drop k := by
  have hlength : ∀ toks : List Token, toks.map Token.kind = kinds →
      ((toks.drop j).length < (toks.drop i).length ↔
        kinds.length - j < kinds.length - i) := by
    rintro toks rfl
    simp only [List.length_drop, List.length_map]
  by_cases hlt : j < kinds.length
  · by_cases hshort : kinds.length - j < kinds.length - i
    · obtain ⟨k, hk, hskip⟩ := exists_skip hj
      refine ⟨k, hk, ?_⟩
      intro toks hkinds
      rw [resume_of_lt ((hlength toks hkinds).mpr hshort), hskip toks hkinds]
    · have hresume : ∀ toks : List Token, toks.map Token.kind = kinds →
          resume (toks.drop i) (toks.drop j) =
            if kinds[j] = .semicolon then toks.drop (j + 1) else skip (toks.drop (j + 1)) := by
        intro toks hkinds
        obtain ⟨t, -, hkind, hdrop⟩ := exists_drop_eq_cons hkinds hlt
        have hnot := mt (hlength toks hkinds).mp hshort
        rw [hdrop] at hnot ⊢
        rw [resume_cons_of_not_lt hnot, hkind]
      by_cases hsemicolon : kinds[j] = .semicolon
      · refine ⟨j + 1, hlt, ?_⟩
        intro toks hkinds
        rw [hresume toks hkinds, if_pos hsemicolon]
      · obtain ⟨k, hk, hskip⟩ := exists_skip (Nat.succ_le_of_lt hlt)
        refine ⟨k, hk, ?_⟩
        intro toks hkinds
        rw [hresume toks hkinds, if_neg hsemicolon, hskip toks hkinds]
  · refine ⟨j, hj, ?_⟩
    intro toks hkinds
    rw [drop_eq_nil_of_kinds hkinds (Nat.le_of_not_lt hlt), resume_nil]

def follow (ts : List Token) : List Token :=
  match read ts with
  | .ok (_, after) => after
  | .error stuck => resume ts stuck.rest

/-- The kinds make the attempt at one place come to the leg, and the next one start at another. -/
def Leads (kinds : List Kind) (i : Nat) (leg : Leg) (next : Nat) : Prop :=
  ∀ toks, toks.map Token.kind = kinds →
    follow (toks.drop i) = toks.drop next ∧
      ∀ stop behind, leg.Drawn (toks ++ stop :: behind)
        (Recovery.resultBefore stop (Attempt.ofOutcome (read (toks.drop i))))

theorem exists_leg_of_close {i j : Nat} (hj : j ≤ kinds.length) (build : Expr → Stmt)
    (make : Outline → Leg) (expected : Expected)
    (hmake : ∀ toks outline e, Outline.Drawn toks outline e →
      (make outline).Drawn toks (.inl (build e)))
    (hread : ∀ toks : List Token, toks.map Token.kind = kinds →
      read (toks.drop i) = close build expected (Expr.read (toks.drop j))) :
    ∃ (leg : Leg) (next : Nat), next ≤ kinds.length ∧ Leads kinds i leg next := by
  obtain ⟨upshot, hplace, h⟩ := exists_close expected hj
  cases upshot with
  | done outline next =>
      refine ⟨make outline, next, hplace, ?_⟩
      intro toks hkinds
      obtain ⟨parsed, hparsed, hclose⟩ := h toks hkinds build
      cases hparsed with
      | done tree =>
          rw [follow, hread toks hkinds, hclose]
          exact ⟨rfl, fun stop behind => hmake _ _ _ (tree.append _)⟩
  | stuck wanted place =>
      obtain ⟨next, hnext, hresume⟩ := exists_resume i hplace
      refine ⟨.failure place wanted, next, hnext, ?_⟩
      intro toks hkinds
      obtain ⟨parsed, hparsed, hclose⟩ := h toks hkinds build
      cases hparsed with
      | stuck =>
          rw [follow, hread toks hkinds, hclose]
          rw [Upshot.place, ← hkinds, List.length_map] at hplace
          refine ⟨hresume toks hkinds, ?_⟩
          intro stop behind
          have hblamed := Leg.Drawn.failure (Misfit.getElem?_ofStuck hplace wanted stop behind)
          exact hblamed

/-- The kinds decide what an attempt comes to and where the next one starts. -/
theorem exists_leg {i : Nat} (hi : i < kinds.length) :
    ∃ (leg : Leg) (next : Nat), next ≤ kinds.length ∧ Leads kinds i leg next := by
  by_cases hprint : kinds[i] = .kwPrint
  · refine exists_leg_of_close hi .print .print .semicolonAfterValue (fun _ _ _ => .print) ?_
    intro toks hkinds
    obtain ⟨t, -, hkind, hdrop⟩ := exists_drop_eq_cons hkinds hi
    rw [hdrop, read, if_pos (hkind ▸ hprint)]
  · refine exists_leg_of_close hi.le .expression .expression .semicolonAfterExpression
      (fun _ _ _ => .expression) ?_
    intro toks hkinds
    obtain ⟨t, -, hkind, hdrop⟩ := exists_drop_eq_cons hkinds hi
    rw [hdrop, read, if_neg (hkind ▸ hprint)]

end Steps

end Stmt

namespace Attempt

private theorem length_follow_lt {ts : List Token} (hts : ts ≠ []) :
    (Stmt.follow ts).length < ts.length := by
  obtain ⟨t, ts, rfl⟩ := List.exists_cons_of_ne_nil hts
  unfold Stmt.follow
  split
  · rename_i hread
    exact Stmt.length_of_read_ok hread
  · rename_i hread
    exact Stmt.length_resume_lt hread

private theorem all_of_ne_nil {ts : List Token} (hts : ts ≠ []) :
    all ts = ofOutcome (Stmt.read ts) :: all (Stmt.follow ts) := by
  obtain ⟨t, ts, rfl⟩ := List.exists_cons_of_ne_nil hts
  rw [Stmt.follow]
  cases hread : Stmt.read (t :: ts) with
  | ok result => exact all_of_read_ok hread
  | error stuck => exact all_of_read_error hread

theorem exists_legs (kinds : List Kind) {i : Nat} (hi : i ≤ kinds.length) :
    ∃ legs : List Leg, ∀ toks, toks.map Token.kind = kinds → ∀ stop behind,
      List.Forall₂ (Leg.Drawn (toks ++ stop :: behind)) legs
        ((all (toks.drop i)).map (Recovery.resultBefore stop)) := by
  induction hn : kinds.length - i using Nat.strongRecOn generalizing i with
  | ind n ih =>
      subst hn
      by_cases hlt : i < kinds.length
      · obtain ⟨leg, next, hnext, h⟩ := Stmt.exists_leg hlt
        have hprogress : i < next := by
          -- The kinds alone are a list of tokens, and an attempt on it goes on.
          have hkinds : (kinds.map Token.ofKind).map Token.kind = kinds := by
            simp [Token.ofKind, Function.comp_def]
          obtain ⟨t, -, -, hdrop⟩ := exists_drop_eq_cons hkinds hlt
          have hshort := length_follow_lt (hdrop ▸ List.cons_ne_nil t _)
          rw [(h _ hkinds).1] at hshort
          simp at hshort
          omega
        obtain ⟨legs, hlegs⟩ := ih (kinds.length - next) (by omega) hnext rfl
        refine ⟨leg :: legs, ?_⟩
        intro toks hkinds stop behind
        obtain ⟨t, -, -, hdrop⟩ := exists_drop_eq_cons hkinds hlt
        obtain ⟨hfollow, hleg⟩ := h toks hkinds
        rw [all_of_ne_nil (hdrop ▸ List.cons_ne_nil t _), List.map_cons, hfollow]
        exact .cons (hleg stop behind) (hlegs toks hkinds stop behind)
      · refine ⟨[], ?_⟩
        intro toks hkinds stop behind
        rw [drop_eq_nil_of_kinds hkinds (by omega), all_nil]
        exact .nil

end Attempt

theorem Expr.exists_reply (kinds : List Kind) :
    ∃ reply : Reply, ∀ ts, (Tokens.ofList ts).body.map Token.kind = kinds → ∀ behind,
      reply.Drawn ((Tokens.ofList ts).body ++ (Tokens.ofList ts).stop :: behind)
        (ofTokens ts) := by
  obtain ⟨upshot, hplace, h⟩ := exists_upshot (Nat.zero_le kinds.length)
  refine ⟨.ofUpshot kinds.length upshot, ?_⟩
  intro ts hkinds behind
  have hupshot := h _ hkinds
  rw [← hkinds, List.length_map] at hplace
  have hblamed (expected : Expected) :=
    Misfit.getElem?_ofStuck hplace expected (Tokens.ofList ts).stop behind
  rw [List.drop_zero] at hupshot
  rw [ofTokens]
  generalize read (Tokens.ofList ts).body = parsed at hupshot ⊢
  cases hupshot with
  | @stuck expected i =>
      have hdrawn := Reply.Drawn.misfit (hblamed expected)
      exact hdrawn
  | @done outline e i tree =>
      by_cases hlt : i < kinds.length
      · obtain ⟨t, ht, -, hdrop⟩ := exists_drop_eq_cons hkinds hlt
        have hdrawn := Reply.Drawn.misfit (hblamed .endOfExpression)
        simpa [Reply.ofUpshot, Upshot.place, hlt, hdrop, Misfit.ofStuck] using hdrawn
      · have hdrop := drop_eq_nil_of_kinds hkinds (Nat.le_of_not_lt hlt)
        simpa [Reply.ofUpshot, hlt, hdrop] using Reply.Drawn.tree (tree.append _)

/-! ## Programs -/

private theorem Tokens.map_kind_body (ts : List Token) :
    (ofList ts).body.map Token.kind = (ts.map Token.kind).takeWhile (· != .eof) := by
  rw [body_ofList, List.takeWhile_map]
  rfl

namespace Program

def results (ts : List Token) : List (Stmt ⊕ Misfit) :=
  (Attempt.all (Tokens.ofList ts).body).map (Recovery.resultBefore (Tokens.ofList ts).stop)

theorem stmts_eq (ts : List Token) :
    (ofTokens ts).stmts = (results ts).filterMap Sum.getLeft? := by
  rw [stmts_ofTokens, results, Recovery.stmt?_eq (Tokens.ofList ts).stop, List.filterMap_map]

theorem misfits_eq (ts : List Token) :
    (ofTokens ts).misfits = (results ts).filterMap Sum.getRight? := by
  rw [misfits_ofTokens, results, List.map_filterMap, Recovery.stuck?_eq, List.filterMap_map]

theorem exists_legs (kinds : List Kind) :
    ∃ (legs : List Leg) (reply : Reply), ∀ ts, ts.map Token.kind = kinds →
      List.Forall₂ (Leg.Drawn (Tokens.closed ts)) legs (results ts) ∧
        reply.Drawn (Tokens.closed ts) (Expr.ofTokens ts) := by
  obtain ⟨legs, hlegs⟩ :=
    Attempt.exists_legs (kinds.takeWhile (· != .eof)) (Nat.zero_le _)
  obtain ⟨reply, hreply⟩ := Expr.exists_reply (kinds.takeWhile (· != .eof))
  refine ⟨legs, reply, ?_⟩
  intro ts hkinds
  have hbody : (Tokens.ofList ts).body.map Token.kind = kinds.takeWhile (· != .eof) := by
    rw [Tokens.map_kind_body, hkinds]
  obtain ⟨behind, hclosed⟩ := Tokens.exists_closed ts
  rw [hclosed]
  exact ⟨hlegs _ hbody (Tokens.ofList ts).stop behind, hreply ts hbody behind⟩

/--
Every token list has a plan that all token lists of the same kinds follow: its
attempts come to statements of the same outlines, with their own tokens in the
places, and the same attempts fail, expect the same and blame the token at the same
place.  So does the reading of one expression.
-/
theorem ofTokens_outlined (ts : List Token) :
    ∃ (legs : List Leg) (reply : Reply), ∀ us, us.map Token.kind = ts.map Token.kind →
      List.Forall₂ (Leg.Drawn (Tokens.closed us)) legs (results us) ∧
        (ofTokens us).stmts = (results us).filterMap Sum.getLeft? ∧
        (ofTokens us).misfits = (results us).filterMap Sum.getRight? ∧
        reply.Drawn (Tokens.closed us) (Expr.ofTokens us) := by
  obtain ⟨legs, reply, h⟩ := exists_legs (ts.map Token.kind)
  refine ⟨legs, reply, ?_⟩
  intro us hkinds
  obtain ⟨hlegs, hreply⟩ := h us hkinds
  exact ⟨hlegs, stmts_eq us, misfits_eq us, hreply⟩

end Program

end Scriptlet
