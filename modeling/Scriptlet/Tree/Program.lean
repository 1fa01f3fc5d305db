import Scriptlet.Tree.Precedence
import Scriptlet.Diagnostics.Record

/-!
# Reading programs

A program is read as a sequence of attempts at one statement each.  A failed
attempt contributes no statement and blames one token; the next attempt then
starts at the next statement boundary, which is just behind a semicolon or in
front of a token that can start a statement.  Reading ends at the first end
token.
-/

namespace Scriptlet

structure Tokens where
  body : List Token
  stop : Token

/-- A list without an end token gets one on the line of its last token. -/
def Tokens.ofList (ts : List Token) : Tokens :=
  match ts.dropWhile fun t => t.kind != .eof with
  | stop :: _ => ⟨ts.takeWhile fun t => t.kind != .eof, stop⟩
  | [] => ⟨ts, ⟨.eof, [], (ts.getLast?.map Token.line).getD 1, .none⟩⟩

namespace Stmt

def close (build : Expr → Stmt) (expected : Expected) :
    Except Stuck (Expr × List Token) → Except Stuck (Stmt × List Token)
  | .error stuck => .error stuck
  | .ok (_, []) => .error ⟨expected, []⟩
  | .ok (e, t :: rest) =>
    if t.kind = .semicolon then .ok (build e, rest) else .error ⟨expected, t :: rest⟩

def read : List Token → Except Stuck (Stmt × List Token)
  | [] => .error ⟨.expression, []⟩
  | t :: rest =>
    if t.kind = .kwPrint then close .print .semicolonAfterValue (Expr.read rest)
    else close .expression .semicolonAfterExpression (Expr.read (t :: rest))

/-! ## Resuming after a failure -/

def skip : List Token → List Token
  | [] => []
  | t :: rest =>
    if t.kind.startsStatement then t :: rest
    else if t.kind = .semicolon then rest
    else skip rest

/--
The start of the next attempt after one that started at `start` and failed in
front of `rest`.  A token that fails at once is skipped itself.
-/
def resume (start rest : List Token) : List Token :=
  if rest.length < start.length then skip rest
  else
    match rest with
    | [] => []
    | t :: rest => if t.kind = .semicolon then rest else skip rest

theorem skip_suffix (ts : List Token) : skip ts <:+ ts := by
  fun_induction skip ts with
  | case1 => exact List.suffix_refl _
  | case2 => exact List.suffix_refl _
  | case3 => exact List.suffix_cons _ _
  | case4 t rest _ _ ih => exact ih.trans (List.suffix_cons _ _)

theorem close_length {build : Expr → Stmt} {expected : Expected}
    {parsed : Except Stuck (Expr × List Token)} {s : Stmt} {rest : List Token}
    (h : close build expected parsed = .ok (s, rest)) :
    rest.length < (Precedence.remainder parsed).length := by
  unfold close at h
  split at h
  · simp at h
  · simp at h
  · split at h
    · simp at h
      simp [Precedence.remainder, h]
    · simp at h

theorem close_stuck {build : Expr → Stmt} {expected : Expected}
    {parsed : Except Stuck (Expr × List Token)} {stuck : Stuck}
    (h : close build expected parsed = .error stuck) :
    stuck.rest = Precedence.remainder parsed := by
  unfold close at h
  split at h
  · simp at h
    simp [Precedence.remainder, h]
  · simp at h
    simp [Precedence.remainder, ← h]
  · split at h
    · simp at h
    · simp at h
      simp [Precedence.remainder, ← h]

theorem length_of_read_ok {ts rest : List Token} {s : Stmt}
    (h : read ts = .ok (s, rest)) : rest.length < ts.length := by
  unfold read at h
  split at h
  · simp at h
  · rename_i t ts
    have short := Expr.length_remainder_read ts
    split at h
    · have := close_length h
      simp
      omega
    · exact Nat.lt_of_lt_of_le (close_length h) (Expr.length_remainder_read _)

theorem length_of_read_error {ts : List Token} {stuck : Stuck}
    (h : read ts = .error stuck) : stuck.rest.length ≤ ts.length := by
  unfold read at h
  split at h
  · simp at h
    simp [← h]
  · rename_i t ts
    have short := Expr.length_remainder_read ts
    split at h
    · rw [close_stuck h]
      simp
      omega
    · rw [close_stuck h]
      exact Expr.length_remainder_read _

theorem length_resume_lt {t : Token} {ts : List Token} {stuck : Stuck}
    (h : read (t :: ts) = .error stuck) :
    (resume (t :: ts) stuck.rest).length < (t :: ts).length := by
  have bound := length_of_read_error h
  unfold resume
  split
  · have := (skip_suffix stuck.rest).length_le
    omega
  · split
    · simp
    · rename_i u rest eq
      rw [eq] at bound
      have := (skip_suffix rest).length_le
      split <;> simp at * <;> omega

end Stmt

inductive Attempt where
  | parsed (stmt : Stmt)
  | failed (stuck : Stuck)

namespace Attempt

def stmt? : Attempt → Option Stmt
  | parsed stmt => some stmt
  | failed _ => none

def stuck? : Attempt → Option Stuck
  | parsed _ => none
  | failed stuck => some stuck

def allFrom (done : List Attempt) (ts : List Token) : List Attempt :=
  match ts with
  | [] => done.reverse
  | t :: rest =>
    match _parsed : Stmt.read (t :: rest) with
    | .ok (stmt, after) => allFrom (.parsed stmt :: done) after
    | .error stuck => allFrom (.failed stuck :: done) (Stmt.resume (t :: rest) stuck.rest)
  termination_by ts.length
  decreasing_by
    · exact Stmt.length_of_read_ok _parsed
    · exact Stmt.length_resume_lt _parsed

def all (ts : List Token) : List Attempt := allFrom [] ts

end Attempt

structure Misfit where
  token : Token
  expected : Expected

namespace Misfit

def ofStuck (stop : Token) (stuck : Stuck) : Misfit :=
  ⟨stuck.rest.headD stop, stuck.expected⟩

def record (m : Misfit) : Record := m.token.record .parse (utf8 m.expected.message)

/-- Error tokens were recorded when they were scanned and are not recorded again. -/
def record? (m : Misfit) : Option Record :=
  if m.token.kind = .error then none else some m.record

end Misfit

structure Program where
  stmts : List Stmt
  misfits : List Misfit

namespace Program

def ofTokens (ts : List Token) : Program :=
  let tokens := Tokens.ofList ts
  let attempts := Attempt.all tokens.body
  { stmts := attempts.filterMap Attempt.stmt?
    misfits := (attempts.filterMap Attempt.stuck?).map (Misfit.ofStuck tokens.stop) }

def records (p : Program) : Diagnostics := p.misfits.filterMap Misfit.record?

end Program

def Expr.ofTokens (ts : List Token) : Except Misfit Expr :=
  let tokens := Tokens.ofList ts
  match Expr.read tokens.body with
  | .error stuck => .error (Misfit.ofStuck tokens.stop stuck)
  | .ok (e, []) => .ok e
  | .ok (_, t :: _) => .error ⟨t, .endOfExpression⟩

end Scriptlet
