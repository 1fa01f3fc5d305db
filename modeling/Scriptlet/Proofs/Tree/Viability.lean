import Scriptlet.Proofs.Tree.Parentheses

/-!
# The earliest error

The machine takes one token after the other and stops in front of the first
one that it cannot take.  What it has taken can always be completed: by an
operand where one is due, and by one closing parenthesis for each that is open
(`run_completion`).  Behind a token that it cannot take nothing is read any
more.  So the blamed token is the first one that no expression can have in its
place (`Expr.ofTokens_blames_first`).
-/

namespace Scriptlet.Precedence

open Grammar

/-! ## One token at a time -/

/-- What the machine becomes by taking a token, if it can take it. -/
def take? : State → List Frame → Token → Option (State × List Frame)
  | .due, stack, t =>
    match t.literal? with
    | some value => some (.ready (.literal value), stack)
    | none =>
      if t.kind.isUnary then some (.due, .unary t :: stack)
      else if t.kind = .leftParen then some (.due, .paren :: stack)
      else none
  | .ready e, stack, t =>
    match t.kind.level? with
    | some level => some (.due, .binary (reduce level e stack).1 t :: (reduce level e stack).2)
    | none =>
      if t.kind = .rightParen then
        match reduce 0 e stack with
        | (inner, .paren :: below) => some (.ready (.grouping inner), below)
        | _ => none
      else none

/-- The outcome in front of `rest`, of which nothing is taken. -/
def halt : State → List Frame → List Token → Except Stuck (Expr × List Token)
  | .due, _, rest => .error ⟨.expression, rest⟩
  | .ready e, stack, rest => finish e stack rest

/-- The machine takes none of these tokens. -/
def Blocked (state : State) (stack : List Frame) (rest : List Token) : Prop :=
  ∀ t ∈ rest.head?, take? state stack t = none

theorem remainder_halt (state : State) (stack : List Frame) (rest : List Token) :
    remainder (halt state stack rest) = rest := by
  cases state with
  | due => rfl
  | ready e => exact remainder_finish e stack rest

theorem reduce_zero_cases (e : Expr) (stack : List Frame) :
    (∃ e', reduce 0 e stack = (e', [])) ∨
      ∃ e' below, reduce 0 e stack = (e', .paren :: below) := by
  have hadmits := admits_reduce 0 e stack
  match h : reduce 0 e stack with
  | (e', []) => exact .inl ⟨e', rfl⟩
  | (e', .paren :: below) => exact .inr ⟨e', below, rfl⟩
  | (e', .unary op :: below) =>
      rw [h] at hadmits
      simp [Admits] at hadmits
  | (e', .binary left op :: below) =>
      rw [h] at hadmits
      simp [Admits] at hadmits

theorem run_cons (state : State) (stack : List Frame) (t : Token) (rest : List Token) :
    run state stack (t :: rest) =
      match take? state stack t with
      | some (next, below) => run next below rest
      | none => halt state stack (t :: rest) := by
  cases state with
  | due =>
      rw [run, take?, halt]
      cases t.literal? with
      | some value => rfl
      | none =>
          cases t.kind.isUnary with
          | true => rfl
          | false => by_cases hparen : t.kind = .leftParen <;> simp [hparen]
  | ready e =>
      rw [run, take?, halt]
      cases t.kind.level? with
      | some level => rfl
      | none =>
          by_cases hparen : t.kind = .rightParen
          · rcases reduce_zero_cases e stack with ⟨e', hreduce⟩ | ⟨e', below, hreduce⟩
            · simp [hparen, hreduce, finish, reduce]
            · simp [hparen, hreduce]
          · simp [hparen]

theorem run_of_blocked {state : State} {stack : List Frame} {rest : List Token}
    (h : Blocked state stack rest) : run state stack rest = halt state stack rest := by
  cases rest with
  | nil => cases state <;> rfl
  | cons t rest => rw [run_cons, h t rfl]

/-! ## Taken tokens -/

/-- By taking these tokens the machine gets from the first state to the second. -/
inductive Takes : State → List Frame → List Token → State → List Frame → Prop
  | nil (state : State) (stack : List Frame) : Takes state stack [] state stack
  | cons {state next last : State} {stack below bottom : List Frame} {t : Token}
      {ts : List Token} (first : take? state stack t = some (next, below))
      (rest : Takes next below ts last bottom) : Takes state stack (t :: ts) last bottom

namespace Takes

variable {state last : State} {stack bottom : List Frame} {ts : List Token}

theorem run_append (h : Takes state stack ts last bottom) (rest : List Token) :
    run state stack (ts ++ rest) = run last bottom rest := by
  induction h with
  | nil => rfl
  | cons first _ ih =>
      rw [List.cons_append, run_cons, first]
      exact ih

theorem snoc {next : State} {below : List Frame} {t : Token}
    (h : Takes state stack ts last bottom) (ht : take? last bottom t = some (next, below)) :
    Takes state stack (ts ++ [t]) next below := by
  induction h with
  | nil => exact .cons ht (.nil _ _)
  | cons first _ ih => exact .cons first (ih ht)

end Takes

theorem exists_takes (state : State) (stack : List Frame) (ts : List Token) :
    ∃ front rest last bottom, ts = front ++ rest ∧ Takes state stack front last bottom ∧
      Blocked last bottom rest := by
  induction ts generalizing state stack with
  | nil => exact ⟨[], [], state, stack, rfl, .nil _ _, by simp [Blocked]⟩
  | cons t ts ih =>
      cases htake : take? state stack t with
      | none => exact ⟨[], t :: ts, state, stack, rfl, .nil _ _, by simpa [Blocked] using htake⟩
      | some taken =>
          obtain ⟨front, rest, last, bottom, rfl, htakes, hblocked⟩ := ih taken.1 taken.2
          exact ⟨t :: front, rest, last, bottom, rfl, .cons htake htakes, hblocked⟩

/-! ## Completion -/

def closing : List Frame → List Token
  | [] => []
  | .paren :: stack => .ofKind .rightParen :: closing stack
  | .unary _ :: stack => closing stack
  | .binary _ _ :: stack => closing stack

/-- Tokens that make an expression of what has been taken. -/
def completion : State → List Frame → List Token
  | .due, stack => .ofKind .kwNil :: closing stack
  | .ready _, stack => closing stack

private theorem demand_closing (stack : List Frame) : demand (closing stack) = 0 := by
  fun_induction closing stack with
  | case1 => rfl
  | case2 => rfl
  | case3 op stack ih => exact ih
  | case4 left op stack ih => exact ih

theorem kind_ne_eof_of_mem_closing (stack : List Frame) :
    ∀ t ∈ closing stack, t.kind ≠ .eof := by
  fun_induction closing stack with
  | case1 => simp
  | case2 stack ih => exact List.forall_mem_cons.mpr ⟨Kind.noConfusion, ih⟩
  | case3 op stack ih => exact ih
  | case4 left op stack ih => exact ih

theorem kind_ne_eof_of_mem_completion (state : State) (stack : List Frame) :
    ∀ t ∈ completion state stack, t.kind ≠ .eof := by
  cases state with
  | due => exact List.forall_mem_cons.mpr ⟨Kind.noConfusion, kind_ne_eof_of_mem_closing stack⟩
  | ready e => exact kind_ne_eof_of_mem_closing stack

theorem run_closing (e : Expr) (stack : List Frame) :
    ∃ e', run (.ready e) stack (closing stack) = .ok (e', []) := by
  induction stack generalizing e with
  | nil => exact ⟨e, rfl⟩
  | cons frame stack ih =>
      cases frame with
      | unary op =>
          rw [closing, run_ready_unary]
          exact ih (.unary op e)
      | binary left op =>
          rw [closing, run_ready_binary left e stack (by simp [demand_closing])]
          exact ih (.binary left op e)
      | paren => exact ih (.grouping e)

theorem run_completion (state : State) (stack : List Frame) :
    ∃ e, run state stack (completion state stack) = .ok (e, []) := by
  cases state with
  | due => exact run_closing (.literal .nil) stack
  | ready e => exact run_closing e stack

end Scriptlet.Precedence

namespace Scriptlet.Expr

open Grammar Precedence

/-- How many tokens reading an expression takes; the next one is to blame if that fails. -/
def taken (ts : List Token) : Nat := ts.length - (remainder (read ts)).length

theorem exists_taken (ts : List Token) :
    ∃ front rest last bottom, ts = front ++ rest ∧ taken ts = front.length ∧
      Takes .due [] front last bottom ∧ Blocked last bottom rest ∧
      read ts = halt last bottom rest := by
  obtain ⟨front, rest, last, bottom, rfl, htakes, hblocked⟩ := exists_takes .due [] ts
  have hread : read (front ++ rest) = halt last bottom rest := by
    rw [read, htakes.run_append, run_of_blocked hblocked]
  refine ⟨front, rest, last, bottom, rfl, ?_, htakes, hblocked, hread⟩
  rw [taken, hread, remainder_halt, List.length_append, Nat.add_sub_cancel]

theorem token_of_ofTokens {ts : List Token} {m : Misfit} (h : ofTokens ts = .error m) :
    m.token =
      (remainder (read (Tokens.ofList ts).body)).headD (Tokens.ofList ts).stop := by
  simp only [ofTokens] at h
  split at h
  · rename_i hread
    cases h
    rw [hread]
    rfl
  · cases h
  · rename_i hread
    cases h
    rw [hread]
    rfl

private theorem read_of_ofTokens {ts : List Token} {e : Expr} (h : ofTokens ts = .ok e) :
    read (Tokens.ofList ts).body = .ok (e, []) :=
  read_eq_ok_iff.mpr ⟨_, (List.append_nil _).symm, derives_of_ofTokens h, rfl⟩

/-- What has been taken is the beginning of an expression. -/
theorem ofTokens_completion {front : List Token} {last : State} {bottom : List Frame}
    (h : Takes .due [] front last bottom) (hfront : ∀ t ∈ front, t.kind ≠ .eof) :
    ∃ e, ofTokens (front ++ completion last bottom) = .ok e := by
  obtain ⟨e, hrun⟩ := run_completion last bottom
  refine ⟨e, (ofTokens_eq_ok_iff_read ?_).mpr ?_⟩
  · exact List.forall_mem_append.mpr ⟨hfront, kind_ne_eof_of_mem_completion last bottom⟩
  · rw [read, h.run_append, hrun]

/-- Nothing makes an expression of a token that is not taken. -/
theorem ofTokens_of_blocked {front : List Token} {last : State} {bottom : List Frame}
    {t : Token} (h : Takes .due [] front last bottom) (ht : take? last bottom t = none)
    (hfront : ∀ u ∈ front ++ [t], u.kind ≠ .eof) (more : List Token) (e : Expr) :
    ofTokens (front ++ [t] ++ more) ≠ .ok e := by
  intro hok
  have hblocked : Blocked last bottom (t :: (Tokens.ofList more).body) := by
    simpa [Blocked] using ht
  have hread := read_of_ofTokens hok
  rw [Tokens.body_ofList_append hfront, List.append_assoc, List.singleton_append, read,
    h.run_append, run_of_blocked hblocked] at hread
  have hremainder := remainder_halt last bottom (t :: (Tokens.ofList more).body)
  rw [hread] at hremainder
  cases hremainder

/--
If a list of tokens is no expression, the blamed token is the first that no
expression has in its place: what stands before it is the beginning of some
expression, and together with it of none.  At the end of the list no token is
to blame, and all of the list is the beginning of some expression.
-/
theorem ofTokens_blames_first {ts : List Token} (hts : ∀ t ∈ ts, t.kind ≠ .eof)
    {m : Misfit} (h : ofTokens ts = .error m) :
    ∃ i, i = taken ts ∧ i ≤ ts.length ∧ m.token = ts.getD i (Tokens.ofList ts).stop ∧
      (∃ more e, (∀ t ∈ more, t.kind ≠ .eof) ∧ ofTokens (ts.take i ++ more) = .ok e) ∧
      (i < ts.length → ∀ more e, ofTokens (ts.take (i + 1) ++ more) ≠ .ok e) := by
  obtain ⟨front, rest, last, bottom, hsplit, hlength, htakes, hblocked, hread⟩ :=
    exists_taken ts
  have htoken := token_of_ofTokens h
  rw [Tokens.body_ofList_of_forall hts, hread, remainder_halt] at htoken
  have hfront : ∀ t ∈ front, t.kind ≠ .eof :=
    fun t ht => hts t (hsplit ▸ List.mem_append_left rest ht)
  refine ⟨_, rfl, ?_, ?_, ?_, ?_⟩
  · rw [hlength, hsplit, List.length_append]
    exact Nat.le_add_right _ _
  · rw [hlength, htoken, hsplit]
    cases rest <;> simp
  · obtain ⟨e, hcompleted⟩ := ofTokens_completion htakes hfront
    rw [hlength, hsplit, List.take_left]
    exact ⟨_, e, kind_ne_eof_of_mem_completion last bottom, hcompleted⟩
  · intro hlt
    cases rest with
    | nil =>
        rw [hlength, hsplit, List.append_nil] at hlt
        exact absurd hlt (Nat.lt_irrefl _)
    | cons t rest =>
        have htaken : ts.take (taken ts + 1) = front ++ [t] := by
          rw [hlength, hsplit, List.take_length_add_append]
          rfl
        rw [htaken]
        apply ofTokens_of_blocked htakes (hblocked t rfl)
        intro u hu
        apply hts u
        rw [hsplit, ← List.singleton_append, ← List.append_assoc]
        exact List.mem_append_left rest hu

/-- In `(nil - (true true`, the second operand of the inner group is to blame. -/
theorem ofTokens_blames_second_operand :
    (∀ t ∈ [Kind.leftParen, .kwNil, .minus, .leftParen, .kwTrue, .kwTrue].map Token.ofKind,
        t.kind ≠ .eof) ∧
      (∃ m, ofTokens ([Kind.leftParen, .kwNil, .minus, .leftParen, .kwTrue, .kwTrue].map
          Token.ofKind) = .error m ∧ m.token = .ofKind .kwTrue) ∧
      ∀ more e, ofTokens ([Kind.leftParen, .kwNil, .minus, .leftParen, .kwTrue, .kwTrue].map
        Token.ofKind ++ more) ≠ .ok e := by
  have hts : ∀ t ∈ [Kind.leftParen, .kwNil, .minus, .leftParen, .kwTrue, .kwTrue].map
      Token.ofKind, t.kind ≠ .eof := by
    decide
  have herror : ofTokens ([Kind.leftParen, .kwNil, .minus, .leftParen, .kwTrue, .kwTrue].map
      Token.ofKind) = .error ⟨.ofKind .kwTrue, .closeParen⟩ := rfl
  obtain ⟨i, rfl, -, -, -, hno⟩ := ofTokens_blames_first hts herror
  exact ⟨hts, ⟨_, herror, rfl⟩, hno (by decide)⟩

end Scriptlet.Expr
