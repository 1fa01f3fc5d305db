import Mathlib.Data.List.Forall2
import Mathlib.Data.Option.Basic
import Scriptlet.Proofs.Tree.Beginnings

/-!
# Outlines

An outline is a tree by the places of its tokens in a list.  The machine looks
at kinds only, so with all token lists of the same kinds it takes the same
tokens, stops at the same place and builds trees of one outline
(`exists_upshot`).
-/

namespace Scriptlet

inductive Outline where
  | nil
  | boolean (b : Bool)
  | number (place : Nat)
  | text (place : Nat)
  | unary (op : Nat) (operand : Outline)
  | binary (left : Outline) (op : Nat) (right : Outline)
  | grouping (inner : Outline)

/-- The tree that the outline becomes with the tokens of a list in its places. -/
inductive Outline.Drawn (toks : List Token) : Outline → Expr → Prop
  | nil : Drawn toks .nil (.literal .nil)
  | boolean (b : Bool) : Drawn toks (.boolean b) (.literal (.boolean b))
  | number {i : Nat} {t : Token} (htoken : toks[i]? = some t) (hkind : t.kind = .number) :
      Drawn toks (.number i) (.literal (.number t.numberValue))
  | text {i : Nat} {t : Token} (htoken : toks[i]? = some t) (hkind : t.kind = .string) :
      Drawn toks (.text i) (.literal (.text t.textValue))
  | unary {i : Nat} {op : Token} {outline : Outline} {e : Expr} (htoken : toks[i]? = some op)
      (hkind : op.kind.isUnary = true) (operand : Drawn toks outline e) :
      Drawn toks (.unary i outline) (.unary op e)
  | binary {i : Nat} {op : Token} {left right : Outline} {e f : Expr}
      (first : Drawn toks left e) (htoken : toks[i]? = some op)
      (hkind : op.kind.level?.isSome = true) (second : Drawn toks right f) :
      Drawn toks (.binary left i right) (.binary e op f)
  | grouping {outline : Outline} {e : Expr} (inner : Drawn toks outline e) :
      Drawn toks (.grouping outline) (.grouping e)

theorem Outline.Drawn.unique {toks : List Token} {outline : Outline} {e e' : Expr}
    (h : outline.Drawn toks e) (h' : outline.Drawn toks e') : e = e' := by
  induction h generalizing e' with
  | nil =>
      cases h'
      rfl
  | boolean b =>
      cases h'
      rfl
  | number htoken hkind =>
      cases h' with
      | number htoken' hkind' =>
          cases Option.some.inj (htoken.symm.trans htoken')
          rfl
  | text htoken hkind =>
      cases h' with
      | text htoken' hkind' =>
          cases Option.some.inj (htoken.symm.trans htoken')
          rfl
  | unary htoken hkind operand ih =>
      cases h' with
      | unary htoken' hkind' operand' =>
          cases Option.some.inj (htoken.symm.trans htoken')
          rw [ih operand']
  | binary first htoken hkind second ihfirst ihsecond =>
      cases h' with
      | binary first' htoken' hkind' second' =>
          cases Option.some.inj (htoken.symm.trans htoken')
          rw [ihfirst first', ihsecond second']
  | grouping inner ih =>
      cases h' with
      | grouping inner' => rw [ih inner']

namespace Precedence

/-! ## The machine by places -/

inductive Slot where
  | unary (op : Nat)
  | binary (left : Outline) (op : Nat)
  | paren

inductive Slot.Drawn (toks : List Token) : Slot → Frame → Prop
  | unary {i : Nat} {op : Token} (htoken : toks[i]? = some op)
      (hkind : op.kind.isUnary = true) : Drawn toks (.unary i) (.unary op)
  | binary {i : Nat} {op : Token} {outline : Outline} {e : Expr}
      (left : outline.Drawn toks e) (htoken : toks[i]? = some op)
      (hkind : op.kind.level?.isSome = true) : Drawn toks (.binary outline i) (.binary e op)
  | paren : Drawn toks .paren .paren

/-- A configuration of the machine by places; without an operand one is due. -/
structure Posture where
  operand : Option Outline
  slots : List Slot

inductive Posture.Drawn (toks : List Token) : Posture → State × List Frame → Prop
  | due {slots : List Slot} {stack : List Frame}
      (hstack : List.Forall₂ (Slot.Drawn toks) slots stack) :
      Drawn toks ⟨none, slots⟩ (.due, stack)
  | ready {outline : Outline} {e : Expr} {slots : List Slot} {stack : List Frame}
      (operand : outline.Drawn toks e) (hstack : List.Forall₂ (Slot.Drawn toks) slots stack) :
      Drawn toks ⟨some outline, slots⟩ (.ready e, stack)

def Posture.closed? (inner : Outline) : List Slot → Option Posture
  | .paren :: below => some ⟨some (.grouping inner), below⟩
  | _ => none

/-- How a run comes out: what was read or expected, and the place in front of which it stopped. -/
inductive Upshot where
  | done (outline : Outline) (place : Nat)
  | stuck (expected : Expected) (place : Nat)

def Upshot.place : Upshot → Nat
  | done _ place => place
  | stuck _ place => place

/-- A frame that is left at the end is a parenthesis without its partner. -/
def Upshot.ofReduced (tree : Outline) (place : Nat) : List Slot → Upshot
  | [] => .done tree place
  | _ :: _ => .stuck .closeParen place

private theorem Upshot.place_ofReduced (tree : Outline) (place : Nat) (slots : List Slot) :
    (ofReduced tree place slots).place = place := by
  cases slots <;> rfl

inductive Upshot.Drawn (toks : List Token) : Upshot → Except Stuck (Expr × List Token) → Prop
  | done {outline : Outline} {e : Expr} {i : Nat} (tree : outline.Drawn toks e) :
      Drawn toks (.done outline i) (.ok (e, toks.drop i))
  | stuck {expected : Expected} {i : Nat} :
      Drawn toks (.stuck expected i) (.error ⟨expected, toks.drop i⟩)

/-! ## Kinds decide every step -/

section Steps

variable (kinds : List Kind)

theorem kind_of_getElem? {kinds : List Kind} {toks : List Token} {i : Nat} {t : Token}
    (hkinds : toks.map Token.kind = kinds) (ht : toks[i]? = some t) : kinds[i]? = some t.kind := by
  simp [← hkinds, ht]

theorem drop_eq_nil_of_kinds {kinds : List Kind} {toks : List Token} {i : Nat}
    (hkinds : toks.map Token.kind = kinds) (hi : kinds.length ≤ i) : toks.drop i = [] := by
  apply List.drop_eq_nil_of_le
  rwa [← hkinds, List.length_map] at hi

theorem exists_drop_eq_cons {kinds : List Kind} {toks : List Token} {i : Nat}
    (hkinds : toks.map Token.kind = kinds) (hi : i < kinds.length) :
    ∃ t, toks[i]? = some t ∧ t.kind = kinds[i] ∧ toks.drop i = t :: toks.drop (i + 1) := by
  subst hkinds
  rw [List.length_map] at hi
  exact ⟨toks[i], List.getElem?_eq_getElem hi, by simp, List.drop_eq_getElem_cons hi⟩

theorem exists_reduced (level : Nat) (outline : Outline) (slots : List Slot) :
    ∃ (left : Outline) (below : List Slot), ∀ toks, toks.map Token.kind = kinds →
      ∀ e stack, outline.Drawn toks e → List.Forall₂ (Slot.Drawn toks) slots stack →
        left.Drawn toks (reduce level e stack).1 ∧
          List.Forall₂ (Slot.Drawn toks) below (reduce level e stack).2 := by
  induction slots generalizing outline with
  | nil =>
      refine ⟨outline, [], ?_⟩
      intro toks hkinds e stack he hstack
      cases hstack
      exact ⟨he, .nil⟩
  | cons slot slots ih =>
      cases slot with
      | unary i =>
          obtain ⟨left, below, h⟩ := ih (.unary i outline)
          refine ⟨left, below, ?_⟩
          intro toks hkinds e stack he hstack
          cases hstack with
          | cons hframe hrest =>
              cases hframe with
              | unary htoken hkind =>
                  rw [reduce]
                  exact h toks hkinds _ _ (.unary htoken hkind he) hrest
      | binary first i =>
          by_cases hlevel : level ≤ ((kinds[i]?).bind Kind.level?).getD 0
          · obtain ⟨left, below, h⟩ := ih (.binary first i outline)
            refine ⟨left, below, ?_⟩
            intro toks hkinds e stack he hstack
            cases hstack with
            | cons hframe hrest =>
                cases hframe with
                | binary hfirst htoken hkind =>
                    rw [kind_of_getElem? hkinds htoken, Option.bind_some] at hlevel
                    rw [reduce, if_pos hlevel]
                    exact h toks hkinds _ _ (.binary hfirst htoken hkind he) hrest
          · refine ⟨outline, .binary first i :: slots, ?_⟩
            intro toks hkinds e stack he hstack
            cases hstack with
            | cons hframe hrest =>
                cases hframe with
                | binary hfirst htoken hkind =>
                    rw [kind_of_getElem? hkinds htoken, Option.bind_some] at hlevel
                    rw [reduce, if_neg hlevel]
                    exact ⟨he, .cons (.binary hfirst htoken hkind) hrest⟩
      | paren =>
          refine ⟨outline, .paren :: slots, ?_⟩
          intro toks hkinds e stack he hstack
          cases hstack with
          | cons hframe hrest =>
              cases hframe
              exact ⟨he, .cons .paren hrest⟩

def leaf? (kind : Kind) (place : Nat) : Option Outline :=
  match kind with
  | .kwFalse => some (.boolean false)
  | .kwTrue => some (.boolean true)
  | .kwNil => some .nil
  | .number => some (.number place)
  | .string => some (.text place)
  | _ => none

theorem rel_leaf? {toks : List Token} {i : Nat} {t : Token} (ht : toks[i]? = some t) :
    Option.Rel (fun outline value => outline.Drawn toks (.literal value)) (leaf? t.kind i)
      t.literal? := by
  unfold Token.literal?
  split
  · rename_i hkind
    rw [hkind]
    exact .some (.boolean false)
  · rename_i hkind
    rw [hkind]
    exact .some (.boolean true)
  · rename_i hkind
    rw [hkind]
    exact .some .nil
  · rename_i hkind
    rw [hkind]
    exact .some (.number ht hkind)
  · rename_i hkind
    rw [hkind]
    exact .some (.text ht hkind)
  · rename_i hfalse htrue hnil hnumber hstring
    have hleaf : leaf? t.kind i = none := by
      unfold leaf?
      split <;> simp_all
    rw [hleaf]
    exact .none

private theorem exists_step_due (slots : List Slot) (kind : Kind) (i : Nat) :
    ∃ next : Option Posture, ∀ toks stack t, toks[i]? = some t → t.kind = kind →
      List.Forall₂ (Slot.Drawn toks) slots stack →
        Option.Rel (Posture.Drawn toks) next (take? .due stack t) := by
  cases hleaf : leaf? kind i with
  | some leaf =>
      refine ⟨some ⟨some leaf, slots⟩, ?_⟩
      rintro toks stack t ht rfl hstack
      have hrel := rel_leaf? ht
      rw [hleaf] at hrel
      rw [take?]
      generalize t.literal? = value at hrel
      cases hrel with
      | some hvalue => exact .some (.ready hvalue hstack)
  | none =>
      have hliteral : ∀ (toks : List Token) (t : Token), toks[i]? = some t → t.kind = kind →
          t.literal? = none := by
        rintro toks t ht rfl
        have hrel := rel_leaf? ht
        rw [hleaf] at hrel
        generalize t.literal? = value at hrel
        cases hrel
        rfl
      by_cases hunary : kind.isUnary = true
      · refine ⟨some ⟨none, .unary i :: slots⟩, ?_⟩
        rintro toks stack t ht rfl hstack
        rw [take?, hliteral toks t ht rfl, if_pos hunary]
        exact .some (.due (.cons (.unary ht hunary) hstack))
      · by_cases hparen : kind = .leftParen
        · refine ⟨some ⟨none, .paren :: slots⟩, ?_⟩
          rintro toks stack t ht rfl hstack
          rw [take?, hliteral toks t ht rfl, if_neg hunary, if_pos hparen]
          exact .some (.due (.cons .paren hstack))
        · refine ⟨none, ?_⟩
          rintro toks stack t ht rfl hstack
          rw [take?, hliteral toks t ht rfl, if_neg hunary, if_neg hparen]
          exact .none

private theorem exists_step_ready (outline : Outline) (slots : List Slot) (kind : Kind) (i : Nat) :
    ∃ next : Option Posture, ∀ toks, toks.map Token.kind = kinds → ∀ e stack t,
      toks[i]? = some t → t.kind = kind → outline.Drawn toks e →
        List.Forall₂ (Slot.Drawn toks) slots stack →
          Option.Rel (Posture.Drawn toks) next (take? (.ready e) stack t) := by
  cases hlevel : kind.level? with
  | some level =>
      obtain ⟨left, below, h⟩ := exists_reduced kinds level outline slots
      refine ⟨some ⟨none, .binary left i :: below⟩, ?_⟩
      rintro toks hkinds e stack t ht rfl he hstack
      obtain ⟨hleft, hbelow⟩ := h toks hkinds e stack he hstack
      rw [take?, hlevel]
      exact .some (.due (.cons (.binary hleft ht (by simp [hlevel])) hbelow))
  | none =>
      by_cases hparen : kind = .rightParen
      · obtain ⟨inner, below, h⟩ := exists_reduced kinds 0 outline slots
        refine ⟨Posture.closed? inner below, ?_⟩
        rintro toks hkinds e stack t ht rfl he hstack
        obtain ⟨hinner, hbelow⟩ := h toks hkinds e stack he hstack
        simp only [take?, hlevel, if_pos hparen]
        generalize reduce 0 e stack = reduced at hinner hbelow
        obtain ⟨tree, frames⟩ := reduced
        cases hbelow with
        | nil => exact .none
        | cons hframe hrest =>
            cases hframe with
            | unary htoken hkind => exact .none
            | binary left htoken hkind => exact .none
            | paren => exact .some (.ready (.grouping hinner) hrest)
      · refine ⟨none, ?_⟩
        rintro toks hkinds e stack t ht rfl he hstack
        rw [take?, hlevel]
        simp only [if_neg hparen]
        exact .none

theorem exists_step (posture : Posture) (kind : Kind) (i : Nat) :
    ∃ next : Option Posture, ∀ toks, toks.map Token.kind = kinds → ∀ state stack t,
      toks[i]? = some t → t.kind = kind → posture.Drawn toks (state, stack) →
        Option.Rel (Posture.Drawn toks) next (take? state stack t) := by
  obtain ⟨operand, slots⟩ := posture
  cases operand with
  | none =>
      obtain ⟨next, h⟩ := exists_step_due slots kind i
      refine ⟨next, ?_⟩
      intro toks hkinds state stack t ht hkind hposture
      cases hposture with
      | due hstack => exact h toks stack t ht hkind hstack
  | some outline =>
      obtain ⟨next, h⟩ := exists_step_ready kinds outline slots kind i
      refine ⟨next, ?_⟩
      intro toks hkinds state stack t ht hkind hposture
      cases hposture with
      | ready he hstack => exact h toks hkinds _ stack t ht hkind he hstack

private theorem exists_halt (posture : Posture) (i : Nat) :
    ∃ upshot : Upshot, upshot.place = i ∧ ∀ toks, toks.map Token.kind = kinds →
      ∀ state stack, posture.Drawn toks (state, stack) →
        upshot.Drawn toks (halt state stack (toks.drop i)) := by
  obtain ⟨operand, slots⟩ := posture
  cases operand with
  | none =>
      refine ⟨.stuck .expression i, rfl, ?_⟩
      intro toks hkinds state stack hposture
      cases hposture
      exact .stuck
  | some outline =>
      obtain ⟨tree, below, h⟩ := exists_reduced kinds 0 outline slots
      refine ⟨.ofReduced tree i below, Upshot.place_ofReduced tree i below, ?_⟩
      intro toks hkinds state stack hposture
      cases hposture with
      | @ready _ e _ _ he hstack =>
          obtain ⟨htree, hbelow⟩ := h toks hkinds e stack he hstack
          rw [halt, finish]
          generalize reduce 0 e stack = reduced at htree hbelow
          obtain ⟨e', frames⟩ := reduced
          cases hbelow with
          | nil => exact .done htree
          | cons hframe hrest => exact .stuck

theorem exists_upshot_of_blocked (posture : Posture) {i : Nat} (hi : i ≤ kinds.length)
    (hblocked : ∀ toks, toks.map Token.kind = kinds → ∀ state stack,
      posture.Drawn toks (state, stack) → Blocked state stack (toks.drop i)) :
    ∃ upshot : Upshot, upshot.place ≤ kinds.length ∧ ∀ toks, toks.map Token.kind = kinds →
      ∀ state stack, posture.Drawn toks (state, stack) →
        upshot.Drawn toks (run state stack (toks.drop i)) := by
  obtain ⟨upshot, rfl, h⟩ := exists_halt kinds posture i
  refine ⟨upshot, hi, ?_⟩
  intro toks hkinds state stack hposture
  rw [run_of_blocked (hblocked toks hkinds state stack hposture)]
  exact h toks hkinds state stack hposture

/-- The kinds decide how a run comes out, up to what the tokens say in their places. -/
theorem exists_upshot (posture : Posture) {i : Nat} (hi : i ≤ kinds.length) :
    ∃ upshot : Upshot, upshot.place ≤ kinds.length ∧ ∀ toks, toks.map Token.kind = kinds →
      ∀ state stack, posture.Drawn toks (state, stack) →
        upshot.Drawn toks (run state stack (toks.drop i)) := by
  induction hn : kinds.length - i generalizing posture i with
  | zero =>
      apply exists_upshot_of_blocked kinds posture hi
      intro toks hkinds state stack hposture
      have hnil : toks.drop i = [] := drop_eq_nil_of_kinds hkinds (by omega)
      simp [Blocked, hnil]
  | succ n ih =>
      have hlt : i < kinds.length := by omega
      obtain ⟨next, hnext⟩ := exists_step kinds posture kinds[i] i
      cases next with
      | none =>
          apply exists_upshot_of_blocked kinds posture hi
          intro toks hkinds state stack hposture
          obtain ⟨t, ht, hkind, hdrop⟩ := exists_drop_eq_cons hkinds hlt
          have htake := hnext toks hkinds state stack t ht hkind hposture
          generalize htaken : take? state stack t = taken at htake
          cases htake
          simpa [Blocked, hdrop] using htaken
      | some posture' =>
          obtain ⟨upshot, hplace, h⟩ := ih posture' hlt (by omega)
          refine ⟨upshot, hplace, ?_⟩
          intro toks hkinds state stack hposture
          obtain ⟨t, ht, hkind, hdrop⟩ := exists_drop_eq_cons hkinds hlt
          have htake := hnext toks hkinds state stack t ht hkind hposture
          rw [hdrop, run_cons]
          generalize take? state stack t = taken at htake
          cases htake with
          | @some _ c hposture' => exact h toks hkinds c.1 c.2 hposture'

end Steps

end Precedence

open Precedence

theorem Expr.exists_upshot {kinds : List Kind} {i : Nat} (hi : i ≤ kinds.length) :
    ∃ upshot : Upshot, upshot.place ≤ kinds.length ∧ ∀ toks, toks.map Token.kind = kinds →
      upshot.Drawn toks (read (toks.drop i)) := by
  obtain ⟨upshot, hplace, h⟩ := Precedence.exists_upshot kinds ⟨none, []⟩ hi
  exact ⟨upshot, hplace, fun toks hkinds => h toks hkinds .due [] (.due .nil)⟩

end Scriptlet
