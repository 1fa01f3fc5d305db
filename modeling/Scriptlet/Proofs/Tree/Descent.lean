import Scriptlet.Proofs.Tree.Recovery

/-!
# Reading by index

The second way to read a token list follows the grammar level by level.  It
keeps the list as it is and an index into it, looks at tokens by index only,
and goes on by one token at a time.  Two things can keep it from an answer: an
index at which there is no token, and the end of the fuel that every call
costs.  Both are results of their own.  No step looks at an index without a
token, and none passes an end token (`confined`).
-/

namespace Scriptlet.Descent

open Grammar

inductive Result (α : Type) where
  | done (answer : α) (index : Nat)
  | misfit (m : Misfit) (index : Nat)
  | outside (index : Nat)
  | exhausted

structure Step (α : Type) where
  run : (toks : List Token) → (index : Nat) → Result α

namespace Step

variable {α β : Type}

def exhausted : Step α := ⟨fun _ _ => .exhausted⟩

def fail (m : Misfit) : Step α := ⟨fun _ i => .misfit m i⟩

instance : Monad Step where
  pure a := ⟨fun _ i => .done a i⟩
  bind x f := ⟨fun toks i =>
    match x.run toks i with
    | .done a j => (f a).run toks j
    | .misfit m j => .misfit m j
    | .outside j => .outside j
    | .exhausted => .exhausted⟩

/-- A failure becomes an answer; the index stays where the step failed. -/
def caught (x : Step α) : Step (α ⊕ Misfit) := ⟨fun toks i =>
  match x.run toks i with
  | .done a j => .done (.inl a) j
  | .misfit m j => .done (.inr m) j
  | .outside j => .outside j
  | .exhausted => .exhausted⟩

end Step

/-! ## Looking and going on -/

def index : Step Nat := ⟨fun _ i => .done i i⟩

def tokenAt (k : Nat) : Step Token := ⟨fun toks i =>
  match toks[k]? with
  | some t => .done t i
  | none => .outside k⟩

def goOn : Step Unit := ⟨fun _ i => .done () (i + 1)⟩

def peek : Step Token := do tokenAt (← index)

def previous : Step Token := do tokenAt ((← index) - 1)

def isAtEnd : Step Bool := do return (← peek).kind == .eof

/-- Goes on by one token, but not past an end token. -/
def advance : Step Token := do
  if ← isAtEnd then previous
  else
    goOn
    previous

def check (kind : Kind) : Step Bool := do
  if ← isAtEnd then return kind == .eof
  else return (← peek).kind == kind

def takeAny : List Kind → Step Bool
  | [] => return false
  | kind :: kinds => do
    if ← check kind then
      let _ ← advance
      return true
    else takeAny kinds

def blame {α : Type} (expected : Expected) : Step α := do
  Step.fail ⟨← peek, expected⟩

def consume (kind : Kind) (expected : Expected) : Step Token := do
  if ← check kind then advance else blame expected

/-! ## Expressions -/

mutual

def phrase : (fuel : Nat) → Phrase → Step Expr
  | 0, _ => Step.exhausted
  | fuel + 1, .tier tier => do
    let first ← phrase fuel tier.operand
    links fuel tier first
  | fuel + 1, .unary => do
    if ← takeAny [.bang, .minus] then
      let op ← previous
      let operand ← phrase fuel .unary
      return .unary op operand
    else phrase fuel .primary
  | fuel + 1, .primary => do
    if ← takeAny [.kwFalse] then return .literal (.boolean false)
    else if ← takeAny [.kwTrue] then return .literal (.boolean true)
    else if ← takeAny [.kwNil] then return .literal .nil
    else if ← takeAny [.number] then return .literal (.number (← previous).numberValue)
    else if ← takeAny [.string] then return .literal (.text (← previous).textValue)
    else if ← takeAny [.leftParen] then
      let inner ← phrase fuel .expression
      let _ ← consume .rightParen .closeParen
      return .grouping inner
    else blame .expression

def links : (fuel : Nat) → Tier → Expr → Step Expr
  | 0, _, _ => Step.exhausted
  | fuel + 1, tier, left => do
    if ← takeAny tier.operators then
      let op ← previous
      let right ← phrase fuel tier.operand
      links fuel tier (.binary left op right)
    else return left

end

def whole (fuel : Nat) : Step Expr := do
  let e ← phrase fuel .expression
  if ← isAtEnd then return e else blame .endOfExpression

/-! ## Programs -/

def statement (fuel : Nat) : Step Stmt := do
  if ← takeAny [.kwPrint] then
    let e ← phrase fuel .expression
    let _ ← consume .semicolon .semicolonAfterValue
    return .print e
  else
    let e ← phrase fuel .expression
    let _ ← consume .semicolon .semicolonAfterExpression
    return .expression e

/-- Goes on until it stands behind a semicolon or in front of a keyword that starts a statement. -/
def skip : (fuel : Nat) → Step Unit
  | 0 => Step.exhausted
  | fuel + 1 => do
    if ← isAtEnd then return
    else if (← previous).kind == .semicolon then return
    else if (← peek).kind.startsStatement then return
    else
      let _ ← advance
      skip fuel

def synchronize (fuel first : Nat) : Step Unit := do
  if (← index) == first then
    let _ ← advance
    skip fuel
  else skip fuel

def recover (fuel first : Nat) : Stmt ⊕ Misfit → Step Unit
  | .inl _ => return
  | .inr _ => synchronize fuel first

/-- One attempt at a statement and the way to the next one. -/
structure Turn where
  first : Nat
  last : Nat
  result : Stmt ⊕ Misfit

def turn (fuel : Nat) : Step Turn := do
  let first ← index
  let result ← (statement fuel).caught
  recover fuel first result
  return ⟨first, ← index, result⟩

def turns : (fuel : Nat) → Step (List Turn)
  | 0 => Step.exhausted
  | fuel + 1 => do
    if ← isAtEnd then return []
    else
      let head ← turn fuel
      let tail ← turns fuel
      return head :: tail

/-! ## Single steps -/

namespace Step

variable {α β : Type} {x : Step α} {f : α → Step β} {toks : List Token} {i j : Nat}

@[simp] theorem run_pure (a : α) (toks : List Token) (i : Nat) :
    (pure a : Step α).run toks i = .done a i := rfl

@[simp] theorem run_index (toks : List Token) (i : Nat) : index.run toks i = .done i i := rfl

theorem run_bind_of_done {a : α} (h : x.run toks i = .done a j) :
    (x >>= f).run toks i = (f a).run toks j := by
  simp only [bind, h]

theorem run_bind_of_misfit {m : Misfit} (h : x.run toks i = .misfit m j) :
    (x >>= f).run toks i = .misfit m j := by
  simp only [bind, h]

theorem run_caught_of_done {a : α} (h : x.run toks i = .done a j) :
    x.caught.run toks i = .done (.inl a) j := by
  simp only [caught, h]

theorem run_caught_of_misfit {m : Misfit} (h : x.run toks i = .misfit m j) :
    x.caught.run toks i = .done (.inr m) j := by
  simp only [caught, h]

theorem run_peek {t : Token} (h : toks[i]? = some t) : peek.run toks i = .done t i := by
  rw [peek, run_bind_of_done (run_index toks i)]
  simp only [tokenAt, h]

theorem run_previous {t : Token} (h : toks[i - 1]? = some t) :
    previous.run toks i = .done t i := by
  rw [previous, run_bind_of_done (run_index toks i)]
  simp only [tokenAt, h]

theorem run_isAtEnd {t : Token} (h : toks[i]? = some t) :
    isAtEnd.run toks i = .done (t.kind == .eof) i := by
  rw [isAtEnd, run_bind_of_done (run_peek h), run_pure]

theorem run_advance {t : Token} (h : toks[i]? = some t) (hne : t.kind ≠ .eof) :
    advance.run toks i = .done t (i + 1) := by
  rw [advance, run_bind_of_done (run_isAtEnd h), if_neg (by simpa using hne),
    run_bind_of_done rfl, run_previous h]

private theorem run_advance_of_eof {t : Token} (h : toks[i]? = some t) (heof : t.kind = .eof) :
    advance.run toks i = previous.run toks i := by
  rw [advance, run_bind_of_done (run_isAtEnd h), if_pos (by simpa using heof)]

end Step

/-! ## No step passes an end token -/

/--
In front of an index up to `stop` the step looks at no index without a token,
and it stops between that index and `stop`.
-/
def Step.Stays {α : Type} (x : Step α) (toks : List Token) (stop : Nat) : Prop :=
  ∀ i ≤ stop,
    match x.run toks i with
    | .done _ j => i ≤ j ∧ j ≤ stop
    | .misfit _ j => i ≤ j ∧ j ≤ stop
    | .outside _ => False
    | .exhausted => True

namespace Step.Stays

variable {α β : Type} {toks : List Token} {stop : Nat}

theorem pure (a : α) : (Pure.pure a : Step α).Stays toks stop :=
  fun i hi => ⟨Nat.le_refl i, hi⟩

theorem exhausted : (Step.exhausted : Step α).Stays toks stop :=
  fun _ _ => trivial

theorem fail (m : Misfit) : (Step.fail m : Step α).Stays toks stop :=
  fun i hi => ⟨Nat.le_refl i, hi⟩

theorem index : index.Stays toks stop :=
  fun i hi => ⟨Nat.le_refl i, hi⟩

theorem bind {x : Step α} {f : α → Step β} (hx : x.Stays toks stop)
    (hf : ∀ a, (f a).Stays toks stop) : (x >>= f).Stays toks stop := by
  intro i hi
  have hstep := hx i hi
  cases hresult : x.run toks i with
  | done a j =>
      rw [hresult] at hstep
      rw [run_bind_of_done hresult]
      have hnext := hf a j hstep.2
      cases hlast : (f a).run toks j with
      | done b k =>
          rw [hlast] at hnext
          exact ⟨Nat.le_trans hstep.1 hnext.1, hnext.2⟩
      | misfit m k =>
          rw [hlast] at hnext
          exact ⟨Nat.le_trans hstep.1 hnext.1, hnext.2⟩
      | outside k =>
          rw [hlast] at hnext
          exact hnext
      | exhausted => trivial
  | misfit m j =>
      rw [hresult] at hstep
      rw [run_bind_of_misfit hresult]
      exact hstep
  | outside j =>
      rw [hresult] at hstep
      exact hstep.elim
  | exhausted => simp only [Bind.bind, hresult]

theorem ite {x y : Step α} (c : Bool) (hx : x.Stays toks stop) (hy : y.Stays toks stop) :
    (if c = true then x else y).Stays toks stop := by
  cases c with
  | true => exact hx
  | false => exact hy

theorem caught {x : Step α} (hx : x.Stays toks stop) : x.caught.Stays toks stop := by
  intro i hi
  have hstep := hx i hi
  cases hresult : x.run toks i <;> simp_all [Step.caught]

end Step.Stays

section Stays

variable {toks : List Token} {stop : Nat} (hstop : Recovery.kindAt toks stop = some .eof)
include hstop

theorem exists_token {i : Nat} (hi : i ≤ stop) : ∃ t, toks[i]? = some t := by
  obtain ⟨t, ht, -⟩ := Recovery.exists_of_kindAt hstop
  obtain ⟨hlt, -⟩ := List.getElem?_eq_some_iff.mp ht
  exact ⟨_, List.getElem?_eq_getElem (Nat.lt_of_le_of_lt hi hlt)⟩

theorem stays_peek : peek.Stays toks stop := by
  intro i hi
  obtain ⟨t, ht⟩ := exists_token hstop hi
  rw [Step.run_peek ht]
  exact ⟨Nat.le_refl i, hi⟩

theorem stays_previous : previous.Stays toks stop := by
  intro i hi
  obtain ⟨t, ht⟩ := exists_token hstop ((Nat.sub_le i 1).trans hi)
  rw [Step.run_previous ht]
  exact ⟨Nat.le_refl i, hi⟩

theorem stays_isAtEnd : isAtEnd.Stays toks stop :=
  (stays_peek hstop).bind fun _ => .pure _

theorem stays_advance : advance.Stays toks stop := by
  intro i hi
  obtain ⟨t, ht⟩ := exists_token hstop hi
  by_cases heof : t.kind = .eof
  · rw [Step.run_advance_of_eof ht heof]
    exact stays_previous hstop i hi
  · have hlt : i ≠ stop := by
      rintro rfl
      rw [Recovery.kindAt, ht] at hstop
      exact heof (Option.some.inj hstop)
    rw [Step.run_advance ht heof]
    exact ⟨Nat.le_succ i, Nat.lt_of_le_of_ne hi hlt⟩

theorem stays_check (kind : Kind) : (check kind).Stays toks stop :=
  (stays_isAtEnd hstop).bind fun _ =>
    .ite _ (.pure _) ((stays_peek hstop).bind fun _ => .pure _)

theorem stays_takeAny (kinds : List Kind) : (takeAny kinds).Stays toks stop := by
  induction kinds with
  | nil => exact .pure _
  | cons kind kinds ih =>
      exact (stays_check hstop kind).bind fun _ =>
        .ite _ ((stays_advance hstop).bind fun _ => .pure _) ih

theorem stays_blame {α : Type} (expected : Expected) :
    (blame expected : Step α).Stays toks stop :=
  (stays_peek hstop).bind fun _ => .fail _

theorem stays_consume (kind : Kind) (expected : Expected) :
    (consume kind expected).Stays toks stop :=
  (stays_check hstop kind).bind fun _ => .ite _ (stays_advance hstop) (stays_blame hstop _)

theorem stays_phrase_links (fuel : Nat) :
    (∀ p, (phrase fuel p).Stays toks stop) ∧
      ∀ tier left, (links fuel tier left).Stays toks stop := by
  induction fuel with
  | zero => exact ⟨fun _ => .exhausted, fun _ _ => .exhausted⟩
  | succ fuel ih =>
      obtain ⟨ihPhrase, ihLinks⟩ := ih
      have htake := stays_takeAny hstop
      have hprevious := stays_previous hstop
      refine ⟨fun p => ?_, fun tier left => ?_⟩
      · cases p with
        | tier tier => exact (ihPhrase _).bind fun first => ihLinks tier first
        | unary =>
            refine (htake _).bind fun _ => .ite _ ?_ (ihPhrase _)
            exact hprevious.bind fun op => (ihPhrase _).bind fun operand => .pure _
        | primary =>
            refine (htake _).bind fun _ => .ite _ (.pure _) ?_
            refine (htake _).bind fun _ => .ite _ (.pure _) ?_
            refine (htake _).bind fun _ => .ite _ (.pure _) ?_
            refine (htake _).bind fun _ => .ite _ (hprevious.bind fun _ => .pure _) ?_
            refine (htake _).bind fun _ => .ite _ (hprevious.bind fun _ => .pure _) ?_
            refine (htake _).bind fun _ => .ite _ ?_ (stays_blame hstop _)
            exact (ihPhrase _).bind fun inner =>
              (stays_consume hstop _ _).bind fun _ => .pure _
      · refine (htake _).bind fun _ => .ite _ ?_ (.pure _)
        exact hprevious.bind fun op => (ihPhrase _).bind fun right => ihLinks tier _

theorem stays_statement (fuel : Nat) : (statement fuel).Stays toks stop := by
  have hexpression := (stays_phrase_links hstop fuel).1 .expression
  refine (stays_takeAny hstop _).bind fun _ => .ite _ ?_ ?_
  · exact hexpression.bind fun e => (stays_consume hstop _ _).bind fun _ => .pure _
  · exact hexpression.bind fun e => (stays_consume hstop _ _).bind fun _ => .pure _

private theorem stays_whole (fuel : Nat) : (whole fuel).Stays toks stop :=
  ((stays_phrase_links hstop fuel).1 .expression).bind fun _ =>
    (stays_isAtEnd hstop).bind fun _ => .ite _ (.pure _) (stays_blame hstop _)

theorem stays_skip (fuel : Nat) : (skip fuel).Stays toks stop := by
  induction fuel with
  | zero => exact .exhausted
  | succ fuel ih =>
      refine (stays_isAtEnd hstop).bind fun _ => .ite _ (.pure _) ?_
      refine (stays_previous hstop).bind fun _ => .ite _ (.pure _) ?_
      refine (stays_peek hstop).bind fun _ => .ite _ (.pure _) ?_
      exact (stays_advance hstop).bind fun _ => ih

theorem stays_synchronize (fuel first : Nat) : (synchronize fuel first).Stays toks stop :=
  Step.Stays.index.bind fun _ =>
    .ite _ ((stays_advance hstop).bind fun _ => stays_skip hstop fuel) (stays_skip hstop fuel)

private theorem stays_turn (fuel : Nat) : (turn fuel).Stays toks stop := by
  refine Step.Stays.index.bind fun first => ?_
  refine (stays_statement hstop fuel).caught.bind fun result => ?_
  refine Step.Stays.bind ?_ fun _ => Step.Stays.index.bind fun _ => .pure _
  cases result with
  | inl s => exact .pure _
  | inr m => exact stays_synchronize hstop fuel first

private theorem stays_turns (fuel : Nat) : (turns fuel).Stays toks stop := by
  induction fuel with
  | zero => exact .exhausted
  | succ fuel ih =>
      refine (stays_isAtEnd hstop).bind fun _ => .ite _ (.pure _) ?_
      exact (stays_turn hstop fuel).bind fun _ => ih.bind fun _ => .pure _

end Stays

/-- Every reading step, with any fuel, stays in front of the end token at `stop`. -/
structure Confined (toks : List Token) (stop : Nat) : Prop where
  phrase : ∀ fuel p, (phrase fuel p).Stays toks stop
  links : ∀ fuel tier left, (links fuel tier left).Stays toks stop
  whole : ∀ fuel, (whole fuel).Stays toks stop
  statement : ∀ fuel, (statement fuel).Stays toks stop
  synchronize : ∀ fuel first, (synchronize fuel first).Stays toks stop
  turns : ∀ fuel, (turns fuel).Stays toks stop

theorem confined {toks : List Token} {stop : Nat}
    (hstop : Recovery.kindAt toks stop = some .eof) : Confined toks stop :=
  ⟨fun fuel => (stays_phrase_links hstop fuel).1, fun fuel => (stays_phrase_links hstop fuel).2,
    stays_whole hstop, stays_statement hstop, stays_synchronize hstop, stays_turns hstop⟩

end Scriptlet.Descent
