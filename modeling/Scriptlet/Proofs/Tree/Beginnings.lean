import Scriptlet.Proofs.Tree.Viability

/-!
# Beginnings of statements

What a failed attempt has taken is the beginning of some statement, and with
the blamed token behind it of none.  What it says was expected there is a token
that some statement has in its place, and there is no second answer to that
(`Stmt.exists_failure`, `Expected.Suits.unique`).
-/

namespace Scriptlet

namespace Precedence

/-! ## Whole expressions -/

/-- The machine has nothing left to do but to return this tree. -/
def Yields (state : State) (stack : List Frame) (e : Expr) : Prop :=
  ∃ operand, state = .ready operand ∧ reduce 0 operand stack = (e, [])

theorem halt_eq_ok_iff {state : State} {stack : List Frame} {rest after : List Token}
    {e : Expr} :
    halt state stack rest = .ok (e, after) ↔ Yields state stack e ∧ after = rest := by
  cases state with
  | due => simp [halt, Yields]
  | ready operand =>
      rcases reduce_zero_cases operand stack with ⟨e', hreduce⟩ | ⟨e', below, hreduce⟩
      · simp [halt, finish, Yields, hreduce, eq_comm]
      · simp [halt, finish, Yields, hreduce]

theorem take?_of_semicolon {t : Token} (ht : t.kind = .semicolon) (state : State)
    (stack : List Frame) : take? state stack t = none := by
  cases state <;> simp [take?, Token.literal?, Kind.isUnary, Kind.level?, ht]

theorem Takes.kind_ne_semicolon {state last : State} {stack bottom : List Frame}
    {ts : List Token} (h : Takes state stack ts last bottom) :
    ∀ t ∈ ts, t.kind ≠ .semicolon := by
  induction h with
  | nil => simp
  | cons first _ ih =>
      refine List.forall_mem_cons.mpr ⟨?_, ih⟩
      intro ht
      rw [take?_of_semicolon ht] at first
      cases first

/-- The expressions are what the machine takes until it has a tree to return. -/
theorem derives_iff_takes {ts : List Token} {e : Expr} :
    Grammar.Derives .expression ts e ↔
      ∃ last bottom, Takes .due [] ts last bottom ∧ Yields last bottom e := by
  have hderives : Grammar.Derives .expression ts e ↔ Expr.read ts = .ok (e, []) := by
    rw [Expr.read_eq_ok_iff]
    simp
  rw [hderives]
  constructor
  · intro hread
    obtain ⟨front, rest, last, bottom, rfl, -, htakes, -, hhalt⟩ := Expr.exists_taken ts
    rw [hread, eq_comm, halt_eq_ok_iff] at hhalt
    obtain ⟨hyields, rfl⟩ := hhalt
    rw [List.append_nil]
    exact ⟨last, bottom, htakes, hyields⟩
  · rintro ⟨last, bottom, htakes, hyields⟩
    have hblocked : Blocked last bottom [] := by simp [Blocked]
    have hrun := htakes.run_append []
    rw [List.append_nil, run_of_blocked hblocked] at hrun
    exact hrun.trans (halt_eq_ok_iff.mpr ⟨hyields, rfl⟩)

end Precedence

namespace Grammar

/-! ## Statements -/

def Begins (ts : List Token) : Prop := ∃ more s, Statement (ts ++ more) s

theorem Begins.of_prefix {ts us : List Token} (h : Begins us) (hfront : ts <+: us) :
    Begins ts := by
  obtain ⟨behind, rfl⟩ := hfront
  obtain ⟨more, s, hs⟩ := h
  exact ⟨behind ++ more, s, by rwa [List.append_assoc] at hs⟩

theorem Statement.begins {ts : List Token} {s : Stmt} (h : Statement ts s) : Begins ts :=
  ⟨[], s, by rwa [List.append_nil]⟩

theorem Statement.unique {ts : List Token} {s s' : Stmt} (h : Statement ts s)
    (h' : Statement ts s') : s = s' := by
  have hread : Stmt.read ts = .ok (s, []) :=
    Stmt.read_eq_ok_iff.mpr ⟨ts, (List.append_nil ts).symm, h⟩
  have hread' : Stmt.read ts = .ok (s', []) :=
    Stmt.read_eq_ok_iff.mpr ⟨ts, (List.append_nil ts).symm, h'⟩
  rw [hread] at hread'
  cases hread'
  rfl

theorem Statement.exists_last {ts : List Token} {s : Stmt} (h : Statement ts s) :
    ∃ front semicolon, ts = front ++ [semicolon] ∧ semicolon.kind = .semicolon ∧
      ∀ t ∈ front, t.kind ≠ .semicolon := by
  cases h with
  | print hkeyword value hsemicolon =>
      obtain ⟨last, bottom, htakes, -⟩ := Precedence.derives_iff_takes.mp value
      refine ⟨_, _, rfl, hsemicolon, ?_⟩
      exact List.forall_mem_cons.mpr ⟨by simp [hkeyword], htakes.kind_ne_semicolon⟩
  | expression value hsemicolon =>
      obtain ⟨last, bottom, htakes, -⟩ := Precedence.derives_iff_takes.mp value
      exact ⟨_, _, rfl, hsemicolon, htakes.kind_ne_semicolon⟩

theorem Statement.kind_ne_eof {ts : List Token} {s : Stmt} (h : Statement ts s) :
    ∀ t ∈ ts, t.kind ≠ .eof := by
  cases h with
  | print hkeyword value hsemicolon =>
      rw [List.cons_append, List.forall_mem_cons, List.forall_mem_append,
        List.forall_mem_singleton]
      exact ⟨by simp [hkeyword], value.kind_ne_eof, by simp [hsemicolon]⟩
  | expression value hsemicolon =>
      rw [List.forall_mem_append, List.forall_mem_singleton]
      exact ⟨value.kind_ne_eof, by simp [hsemicolon]⟩

theorem Begins.kind_ne_eof {ts : List Token} (h : Begins ts) : ∀ t ∈ ts, t.kind ≠ .eof := by
  obtain ⟨more, s, hs⟩ := h
  exact fun t ht => hs.kind_ne_eof t (List.mem_append_left more ht)

end Grammar

namespace Stmt

open Grammar Precedence

/-! ## Openings -/

inductive Opening : List Token → List Token → (Expr → Stmt) → Expected → Prop
  | print {keyword : Token} {tail : List Token} (hkeyword : keyword.kind = .kwPrint) :
      Opening [keyword] tail .print .semicolonAfterValue
  | expression {tail : List Token} (htail : ∀ t ∈ tail.head?, t.kind ≠ .kwPrint) :
      Opening [] tail .expression .semicolonAfterExpression

theorem exists_opening (ts : List Token) :
    ∃ lead tail build expected, ts = lead ++ tail ∧ Opening lead tail build expected := by
  cases ts with
  | nil => exact ⟨[], [], _, _, rfl, .expression (by simp)⟩
  | cons t ts =>
      by_cases ht : t.kind = .kwPrint
      · exact ⟨[t], ts, _, _, rfl, .print ht⟩
      · exact ⟨[], t :: ts, _, _, rfl, .expression (by simpa using ht)⟩

namespace Opening

variable {lead tail us : List Token} {build : Expr → Stmt} {expected : Expected} {t : Token}
  {last : State} {bottom : List Frame}

theorem read_eq (h : Opening lead tail build expected) :
    read (lead ++ tail) = close build expected (Expr.read tail) := by
  cases h with
  | print hkeyword => simp [read, hkeyword]
  | expression htail =>
      cases tail with
      | nil => rfl
      | cons t tail => simp [read, htail t rfl]

theorem replace {rest : List Token} (h : Opening lead (us ++ t :: rest) build expected)
    (more : List Token) : Opening lead (us ++ t :: more) build expected := by
  cases h with
  | print hkeyword => exact .print hkeyword
  | expression htail =>
      refine .expression ?_
      cases us <;> exact htail

theorem concat (h : Opening lead us build expected) (ht : t.kind ≠ .kwPrint) :
    Opening lead (us ++ [t]) build expected := by
  cases h with
  | print hkeyword => exact .print hkeyword
  | expression htail =>
      refine .expression ?_
      cases us with
      | nil => simpa using ht
      | cons u us => exact htail

theorem kind_ne_semicolon (h : Opening lead tail build expected) :
    ∀ t ∈ lead, t.kind ≠ .semicolon := by
  cases h with
  | print hkeyword => simp [hkeyword]
  | expression htail => simp

theorem statement {e : Expr} (h : Opening lead tail build expected)
    (he : Derives .expression us e) (ht : t.kind = .semicolon) :
    Statement (lead ++ us ++ [t]) (build e) := by
  cases h with
  | print hkeyword => exact .print hkeyword he ht
  | expression htail => exact .expression he ht

theorem begins (h : Opening lead tail build expected) (htakes : Takes .due [] us last bottom) :
    Begins (lead ++ us) := by
  obtain ⟨e, hrun⟩ := run_completion last bottom
  have hread : Expr.read (us ++ completion last bottom) = .ok (e, []) :=
    (htakes.run_append _).trans hrun
  obtain ⟨used, hused, hderives, -⟩ := Expr.read_eq_ok_iff.mp hread
  rw [List.append_nil] at hused
  have hstatement := h.statement (hused ▸ hderives) (t := .ofKind .semicolon) rfl
  exact hstatement.begins.of_prefix ⟨completion last bottom ++ [.ofKind .semicolon], by simp⟩

theorem taken_of_begins (h : Opening lead (us ++ [t]) build expected)
    (htakes : Takes .due [] us last bottom) (hbegins : Begins (lead ++ us ++ [t])) :
    (∃ next, take? last bottom t = some next) ∨
      t.kind = .semicolon ∧ ∃ e, Yields last bottom e := by
  obtain ⟨more, s, hs⟩ := hbegins
  have hread : read (lead ++ (us ++ t :: more)) = .ok (s, []) :=
    read_eq_ok_iff.mpr ⟨_, (List.append_nil _).symm, by simpa using hs⟩
  rw [(h.replace more).read_eq, close_eq_ok_iff] at hread
  obtain ⟨e, semicolon, hexpr, hsemicolon, -⟩ := hread
  cases htake : take? last bottom t with
  | some next => exact .inl ⟨next, rfl⟩
  | none =>
      have hblocked : Blocked last bottom (t :: more) := by simpa [Blocked] using htake
      rw [Expr.read, htakes.run_append, run_of_blocked hblocked, halt_eq_ok_iff] at hexpr
      obtain ⟨hyields, heq⟩ := hexpr
      cases heq
      exact .inr ⟨hsemicolon, e, hyields⟩

end Opening

end Stmt

open Grammar Precedence

/-! ## Expectations -/

/-- With a token of the expected sort in place of the blamed one, a statement can go on. -/
def Expected.Suits (front : List Token) : Expected → Prop
  | expression => Begins (front ++ [.ofKind .kwNil])
  | closeParen => Begins (front ++ [.ofKind .rightParen])
  | semicolonAfterValue => ∃ e, Statement (front ++ [.ofKind .semicolon]) (.print e)
  | semicolonAfterExpression =>
      ∃ e, Statement (front ++ [.ofKind .semicolon]) (.expression e)
  | endOfExpression => False

theorem Stmt.Opening.suits {lead tail us : List Token} {build : Expr → Stmt}
    {expected : Expected} {e : Expr} (h : Opening lead tail build expected)
    (he : Derives .expression us e) : expected.Suits (lead ++ us) := by
  have hstatement := h.statement he (t := .ofKind .semicolon) rfl
  cases h with
  | print hkeyword => exact ⟨e, hstatement⟩
  | expression htail => exact ⟨e, hstatement⟩

theorem Stmt.Opening.halt_of_suits {lead us : List Token} {build : Expr → Stmt}
    {expected expected' : Expected} {last : State} {bottom : List Frame}
    (h : Opening lead us build expected) (htakes : Takes .due [] us last bottom)
    (hsuits : expected'.Suits (lead ++ us)) :
    halt last bottom [] = .error ⟨expected', []⟩ ∨
      (expected' = .semicolonAfterValue ∨ expected' = .semicolonAfterExpression) ∧
        ∃ e, halt last bottom [] = .ok (e, []) := by
  have hsemicolon {s : Stmt} (hs : Statement (lead ++ us ++ [.ofKind .semicolon]) s) :
      ∃ e, halt last bottom [] = .ok (e, []) := by
    rcases (h.concat Kind.noConfusion).taken_of_begins htakes hs.begins with
      ⟨next, hnext⟩ | ⟨-, e, hyields⟩
    · rw [take?_of_semicolon rfl] at hnext
      cases hnext
    · exact ⟨e, halt_eq_ok_iff.mpr ⟨hyields, rfl⟩⟩
  cases expected' with
  | expression =>
      rcases (h.concat Kind.noConfusion).taken_of_begins htakes hsuits with
        ⟨next, hnext⟩ | ⟨hkind, -⟩
      · cases last with
        | due => exact .inl rfl
        | ready operand => cases hnext
      · cases hkind
  | closeParen =>
      rcases (h.concat Kind.noConfusion).taken_of_begins htakes hsuits with
        ⟨next, hnext⟩ | ⟨hkind, -⟩
      · cases last with
        | due => cases hnext
        | ready operand =>
            rcases reduce_zero_cases operand bottom with
              ⟨e', hreduce⟩ | ⟨e', below, hreduce⟩
            · simp [take?, Token.ofKind, Kind.level?, hreduce] at hnext
            · exact .inl (by simp [halt, finish, hreduce])
      · cases hkind
  | semicolonAfterValue =>
      obtain ⟨e, hs⟩ := hsuits
      exact .inr ⟨.inl rfl, hsemicolon hs⟩
  | semicolonAfterExpression =>
      obtain ⟨e, hs⟩ := hsuits
      exact .inr ⟨.inr rfl, hsemicolon hs⟩
  | endOfExpression => exact hsuits.elim

theorem Expected.Suits.begins {front : List Token} {expected : Expected}
    (h : expected.Suits front) : Begins front := by
  cases expected with
  | expression => exact h.of_prefix (List.prefix_append _ _)
  | closeParen => exact h.of_prefix (List.prefix_append _ _)
  | semicolonAfterValue =>
      obtain ⟨e, hs⟩ := h
      exact hs.begins.of_prefix (List.prefix_append _ _)
  | semicolonAfterExpression =>
      obtain ⟨e, hs⟩ := h
      exact hs.begins.of_prefix (List.prefix_append _ _)
  | endOfExpression => exact h.elim

namespace Stmt

theorem exists_takes_of_begins {front : List Token} (h : Begins front)
    (hopen : ∀ t ∈ front, t.kind ≠ .semicolon) :
    ∃ lead us build expected last bottom, front = lead ++ us ∧
      Opening lead us build expected ∧ Takes .due [] us last bottom := by
  obtain ⟨lead, tail, build, expected, rfl, hopening⟩ := exists_opening front
  obtain ⟨us, rest, last, bottom, rfl, htakes, hblocked⟩ := exists_takes .due [] tail
  cases rest with
  | nil => exact ⟨lead, us ++ [], build, expected, last, bottom, rfl, hopening, by simpa⟩
  | cons t rest =>
      have hbegins : Begins (lead ++ us ++ [t]) := h.of_prefix ⟨rest, by simp⟩
      rcases (hopening.replace []).taken_of_begins htakes hbegins with
        ⟨next, hnext⟩ | ⟨hsemicolon, -⟩
      · rw [hblocked t rfl] at hnext
        cases hnext
      · exact absurd hsemicolon (hopen t (by simp))

end Stmt

/-- There is one answer to what was expected behind the beginning of a statement. -/
theorem Expected.Suits.unique {front : List Token} {expected expected' : Expected}
    (hopen : ∀ t ∈ front, t.kind ≠ .semicolon) (h : expected.Suits front)
    (h' : expected'.Suits front) : expected = expected' := by
  obtain ⟨lead, us, build, wanted, last, bottom, rfl, hopening, htakes⟩ :=
    Stmt.exists_takes_of_begins h.begins hopen
  rcases hopening.halt_of_suits htakes h with hhalt | ⟨hsort, e, hhalt⟩ <;>
    rcases hopening.halt_of_suits htakes h' with hhalt' | ⟨hsort', e', hhalt'⟩ <;>
    rw [hhalt] at hhalt' <;> cases hhalt'
  · rfl
  · -- a statement is not at once a print statement and another one
    rcases hsort with rfl | rfl <;> rcases hsort' with rfl | rfl
    · rfl
    · obtain ⟨value, hs⟩ := h
      obtain ⟨value', hs'⟩ := h'
      cases hs.unique hs'
    · obtain ⟨value, hs⟩ := h
      obtain ⟨value', hs'⟩ := h'
      cases hs.unique hs'
    · rfl

namespace Stmt

/-! ## Failures -/

/-- An attempt that has taken `front` fails, and this is what it tells. -/
structure Failure (front : List Token) (stuck : Stuck) : Prop where
  begins : Begins front
  blamed : ∀ t ∈ stuck.rest.head?, ¬ Begins (front ++ [t])
  unended : ∀ t ∈ front, t.kind ≠ .semicolon
  suits : stuck.expected.Suits front

private theorem expected_of_close {build : Expr → Stmt} {expected : Expected} {e : Expr}
    {rest : List Token} {stuck : Stuck}
    (h : close build expected (.ok (e, rest)) = .error stuck) : stuck.expected = expected := by
  cases rest with
  | nil =>
      cases h
      rfl
  | cons t rest =>
      rw [close] at h
      split at h
      · cases h
      · cases h
        rfl

theorem exists_failure {ts : List Token} {stuck : Stuck} (h : read ts = .error stuck) :
    ∃ front, ts = front ++ stuck.rest ∧ Failure front stuck := by
  obtain ⟨lead, tail, build, expected, rfl, hopening⟩ := exists_opening ts
  obtain ⟨us, rest, last, bottom, rfl, -, htakes, hblocked, hread⟩ := Expr.exists_taken tail
  rw [hopening.read_eq, hread] at h
  have hrest : stuck.rest = rest := (close_stuck h).trans (remainder_halt last bottom rest)
  refine ⟨lead ++ us, by rw [hrest, List.append_assoc], hopening.begins htakes, ?_, ?_, ?_⟩
  · intro t ht hbegins
    rw [hrest] at ht
    obtain ⟨behind, rfl⟩ := List.head?_eq_some_iff.mp ht
    rcases (hopening.replace []).taken_of_begins htakes hbegins with
      ⟨next, hnext⟩ | ⟨hsemicolon, e, hyields⟩
    · rw [hblocked t rfl] at hnext
      cases hnext
    · rw [halt_eq_ok_iff.mpr ⟨hyields, rfl⟩] at h
      simp [close, hsemicolon] at h
  · exact List.forall_mem_append.mpr ⟨hopening.kind_ne_semicolon, htakes.kind_ne_semicolon⟩
  · cases last with
    | due =>
        obtain rfl : stuck = ⟨.expression, rest⟩ := by simpa [halt, close, eq_comm] using h
        have hnext := htakes.snoc (t := .ofKind .kwNil) rfl
        simpa [Expected.Suits] using hopening.begins hnext
    | ready operand =>
        rcases reduce_zero_cases operand bottom with ⟨e, hreduce⟩ | ⟨e, below, hreduce⟩
        · have hyields : Yields (.ready operand) bottom e := ⟨operand, rfl, hreduce⟩
          rw [halt_eq_ok_iff.mpr ⟨hyields, rfl⟩] at h
          rw [expected_of_close h]
          exact hopening.suits (derives_iff_takes.mpr ⟨_, _, htakes, hyields⟩)
        · obtain rfl : stuck = ⟨.closeParen, rest⟩ := by
            simpa [halt, finish, close, hreduce, eq_comm] using h
          have hclose : take? (.ready operand) bottom (.ofKind .rightParen) =
              some (.ready (.grouping e), below) := by
            simp [take?, Token.ofKind, Kind.level?, hreduce]
          have hnext := htakes.snoc hclose
          simpa [Expected.Suits] using hopening.begins hnext

end Stmt

end Scriptlet
