import Mathlib.Logic.Relation
import Scriptlet.Fault.Basic

/-!
# The search for a code

A fault is a tree: a cause stands under a wrapped fault, the inner one under a
label, the members under joined faults.  The search for a code walks down the
tree to the first coded fault, looks at its code, goes on at its cause, and never
comes back to what it has left behind.  So it sees every coded fault of a tree
only where joined faults do not compete.
-/

namespace Scriptlet

namespace Fault

/-! ## The tree of a fault -/

@[induction_eliminator]
theorem induction {P : Fault → Prop} (plain : ∀ message, P (.plain message))
    (coded : ∀ own, P (.coded own))
    (wrapped : ∀ own cause, P cause → P (.wrapped own cause))
    (labelled : ∀ label inner, P inner → P (.labelled label inner))
    (joined : ∀ members, (∀ member ∈ members, P member) → P (.joined members))
    (f : Fault) : P f :=
  @Fault.rec P (fun members => ∀ member ∈ members, P member) plain coded wrapped labelled
    joined (fun _ hmember => nomatch hmember)
    (fun _ _ hfirst hrest => List.forall_mem_cons.mpr ⟨hfirst, hrest⟩) f

def unwrapped : Fault → List Fault
  | plain _ => []
  | coded _ => []
  | wrapped _ cause => [cause]
  | labelled _ inner => [inner]
  | joined members => members

/-- The faults of a tree, the fault itself included. -/
def Above : Fault → Fault → Prop :=
  Relation.ReflTransGen fun f g => g ∈ f.unwrapped

def Holds (f : Fault) (own : Particulars) : Prop := ∃ g, f.Above g ∧ g.own? = some own

theorem eq_of_own? {f : Fault} {own : Particulars} (hown : f.own? = some own) :
    f = coded own ∨ ∃ cause, f = wrapped own cause := by
  cases f with
  | coded its => exact .inl (congrArg coded (Option.some.inj hown))
  | wrapped its cause =>
      exact .inr ⟨cause, congrArg (wrapped · cause) (Option.some.inj hown)⟩
  | plain message => simp [own?] at hown
  | labelled label inner => simp [own?] at hown
  | joined members => simp [own?] at hown

theorem above_iff (f g : Fault) :
    f.Above g ↔ g = f ∨ ∃ under ∈ f.unwrapped, under.Above g := by
  constructor
  · intro h
    cases Relation.ReflTransGen.cases_head h with
    | inl h => exact .inl h.symm
    | inr h => exact .inr h
  · rintro (rfl | ⟨under, hunder, h⟩)
    · exact .refl
    · exact .head hunder h

/-! ## The search as a loop -/

mutual

def nodes : Fault → List Fault
  | plain message => [plain message]
  | coded own => [coded own]
  | wrapped own cause => wrapped own cause :: cause.nodes
  | labelled label inner => labelled label inner :: inner.nodes
  | joined members => joined members :: nodesOf members

def nodesOf : List Fault → List Fault
  | [] => []
  | member :: members => member.nodes ++ nodesOf members

end

def first? (f : Fault) : Option Fault := f.nodes.find? fun g => g.own?.isSome

/-- The coded faults that the loop looks at: the first one, then those of its cause. -/
inductive Visits : Fault → Fault → Prop where
  | here {f g : Fault} (hfirst : f.first? = some g) : Visits f g
  | cause {f g under h : Fault} (hfirst : f.first? = some g) (hcause : g.cause? = some under)
      (hvisits : Visits under h) : Visits f h

private theorem mem_nodesOf (g : Fault) (members : List Fault) :
    g ∈ nodesOf members ↔ ∃ member ∈ members, g ∈ member.nodes := by
  induction members with
  | nil => simp [nodesOf]
  | cons member members ih => simp [nodesOf, ih]

theorem mem_nodes (f g : Fault) : g ∈ f.nodes ↔ f.Above g := by
  induction f with
  | plain message => simp [nodes, above_iff (.plain message), unwrapped]
  | coded own => simp [nodes, above_iff (.coded own), unwrapped]
  | wrapped own cause ih => simp [nodes, above_iff (.wrapped own cause), unwrapped, ih]
  | labelled label inner ih => simp [nodes, above_iff (.labelled label inner), unwrapped, ih]
  | joined members ih =>
      have hmembers : g ∈ nodesOf members ↔ ∃ member ∈ members, member.Above g := by
        rw [mem_nodesOf]
        exact exists_congr fun member => and_congr_right fun hmember => ih member hmember
      simp [nodes, above_iff (.joined members), unwrapped, hmembers]

theorem first?_eq_none_iff (f : Fault) : f.first? = none ↔ ∀ own, ¬ f.Holds own := by
  constructor
  · rintro hnone own ⟨g, habove, hown⟩
    have hbare := List.find?_eq_none.mp hnone g ((mem_nodes f g).mpr habove)
    simp [hown] at hbare
  · intro hbare
    refine List.find?_eq_none.mpr fun g hg => ?_
    cases hown : g.own? with
    | none => simp
    | some own => exact absurd ⟨g, (mem_nodes f g).mp hg, hown⟩ (hbare own)

theorem own?_of_first? {f g : Fault} (hfirst : f.first? = some g) :
    ∃ own, g.own? = some own := by
  have hcoded := List.find?_some (p := fun g : Fault => g.own?.isSome) hfirst
  exact Option.isSome_iff_exists.mp hcoded

theorem first?_plain (message : Bytes) : (plain message).first? = none := rfl

theorem first?_coded (own : Particulars) : (coded own).first? = some (coded own) := rfl

theorem first?_wrapped (own : Particulars) (cause : Fault) :
    (wrapped own cause).first? = some (wrapped own cause) := by
  simp [first?, nodes, own?]

theorem first?_labelled (label : Bytes) (inner : Fault) :
    (labelled label inner).first? = inner.first? := by
  simp [first?, nodes, own?]

theorem first?_joined (members : List Fault) :
    (joined members).first? = members.findSome? first? := by
  have hmembers : (nodesOf members).find? (fun g => g.own?.isSome) =
      members.findSome? first? := by
    induction members with
    | nil => rfl
    | cons member members ih =>
        rw [nodesOf, List.find?_append, ih, List.findSome?_cons]
        cases hfirst : member.first? with
        | none => simp [show member.nodes.find? _ = none from hfirst]
        | some g => simp [show member.nodes.find? _ = some g from hfirst]
  rw [← hmembers]
  simp [first?, nodes, own?]

theorem visits_iff (f h : Fault) :
    f.Visits h ↔ ∃ g, f.first? = some g ∧
      (h = g ∨ ∃ under, g.cause? = some under ∧ under.Visits h) := by
  constructor
  · intro hvisits
    cases hvisits with
    | here hfirst => exact ⟨h, hfirst, .inl rfl⟩
    | cause hfirst hcause hvisits => exact ⟨_, hfirst, .inr ⟨_, hcause, hvisits⟩⟩
  · rintro ⟨g, hfirst, rfl | ⟨under, hcause, hvisits⟩⟩
    · exact .here hfirst
    · exact .cause hfirst hcause hvisits

theorem visits_congr {f g : Fault} (hfirst : f.first? = g.first?) (h : Fault) :
    f.Visits h ↔ g.Visits h := by
  rw [visits_iff f, visits_iff g, hfirst]

theorem visits_wrapped (own : Particulars) (cause h : Fault) :
    (wrapped own cause).Visits h ↔ h = wrapped own cause ∨ cause.Visits h := by
  rw [visits_iff, first?_wrapped]
  simp [cause?]

/-! ## What the search leaves behind -/

/--
The faults of a tree that the search comes by: those with no coded fault in the
members in front of them, at every joined fault on the way down.
-/
inductive Reaches : Fault → Fault → Prop where
  | refl (f : Fault) : Reaches f f
  | cause {own : Particulars} {under g : Fault} (h : Reaches under g) :
      Reaches (wrapped own under) g
  | inner {label : Bytes} {under g : Fault} (h : Reaches under g) :
      Reaches (labelled label under) g
  | member {front more : List Fault} {member g : Fault}
      (hfront : ∀ passed ∈ front, ∀ own, ¬ passed.Holds own) (h : Reaches member g) :
      Reaches (joined (front ++ member :: more)) g

/-- Of the members of joined faults, at most one has a coded fault in its tree. -/
def Unforked (f : Fault) : Prop :=
  ∀ members, f.Above (joined members) →
    members.Pairwise fun m m' => (∀ own, ¬ m.Holds own) ∨ ∀ own, ¬ m'.Holds own

private theorem Reaches.above {f g : Fault} (h : f.Reaches g) : f.Above g := by
  induction h with
  | refl f => exact .refl
  | cause h ih => exact .head (List.mem_singleton_self _) ih
  | inner h ih => exact .head (List.mem_singleton_self _) ih
  | member hfront h ih => exact .head (by simp [unwrapped]) ih

theorem reaches_of_visits (f g : Fault) (h : f.Visits g) : f.Reaches g := by
  induction f with
  | plain message =>
      obtain ⟨first, hfirst, _⟩ := (visits_iff _ g).mp h
      simp [first?_plain] at hfirst
  | coded own =>
      obtain ⟨first, hfirst, rfl | ⟨under, hcause, _⟩⟩ := (visits_iff _ g).mp h
      · obtain rfl := Option.some.inj hfirst
        exact .refl _
      · obtain rfl := Option.some.inj hfirst
        simp [cause?] at hcause
  | wrapped own cause ih =>
      obtain rfl | hcause := (visits_wrapped own cause g).mp h
      · exact .refl _
      · exact .cause (ih hcause)
  | labelled label inner ih =>
      exact .inner (ih ((visits_congr (first?_labelled label inner) g).mp h))
  | joined members ih =>
      obtain ⟨first, hfirst, _⟩ := (visits_iff _ g).mp h
      rw [first?_joined] at hfirst
      obtain ⟨front, member, more, rfl, hmember, hfront⟩ := List.findSome?_eq_some_iff.mp hfirst
      have hvisits : member.Visits g := by
        refine (visits_congr ?_ g).mp h
        rw [first?_joined, hfirst, hmember]
      refine .member (fun passed hpassed => ?_) (ih member (by simp) hvisits)
      exact (first?_eq_none_iff passed).mp (hfront passed hpassed)

theorem visits_of_reaches {f g : Fault} {own : Particulars} (hown : g.own? = some own)
    (h : f.Reaches g) : f.Visits g := by
  induction h with
  | refl f =>
      obtain rfl | ⟨cause, rfl⟩ := eq_of_own? hown
      · exact .here (first?_coded own)
      · exact .here (first?_wrapped own cause)
  | cause h ih => exact (visits_wrapped _ _ _).mpr (.inr (ih hown))
  | inner h ih => exact (visits_congr (first?_labelled _ _) _).mpr (ih hown)
  | @member front more member g hfront h ih =>
      -- Nothing is found in front of the member, so the loop starts inside it.
      have hpassed : front.findSome? first? = none :=
        List.findSome?_eq_none_iff.mpr fun passed hpassed =>
          (first?_eq_none_iff passed).mpr (hfront passed hpassed)
      obtain ⟨first, hfirst, _⟩ := (visits_iff _ g).mp (ih hown)
      refine (visits_congr ?_ g).mpr (ih hown)
      simp [first?_joined, List.findSome?_append, hpassed, hfirst]

theorem Unforked.under {f under : Fault} (h : f.Unforked) (hunder : under ∈ f.unwrapped) :
    under.Unforked :=
  fun members habove => h members (.head hunder habove)

theorem Unforked.reaches {f g : Fault} {own : Particulars} (hown : g.own? = some own)
    (habove : f.Above g) (h : f.Unforked) : f.Reaches g := by
  induction habove using Relation.ReflTransGen.head_induction_on with
  | refl => exact .refl g
  | @head f under hunder habove ih =>
      have hreaches := ih (h.under hunder)
      cases f with
      | plain message => simp [unwrapped] at hunder
      | coded own => simp [unwrapped] at hunder
      | wrapped own cause =>
          obtain rfl := List.mem_singleton.mp hunder
          exact .cause hreaches
      | labelled label inner =>
          obtain rfl := List.mem_singleton.mp hunder
          exact .inner hreaches
      | joined members =>
          obtain ⟨front, more, rfl⟩ := List.append_of_mem hunder
          refine .member (fun passed hpassed => ?_) hreaches
          have hpair := (List.pairwise_append.mp (h _ .refl)).2.2 passed hpassed under (by simp)
          exact hpair.resolve_right fun hbare => hbare own ⟨g, habove, hown⟩

/-! ## What the search answers -/

theorem chain_eq (f : Fault) : f.chain = (f.first?.map chain).getD [] := by
  induction f with
  | plain message => rfl
  | coded own => rfl
  | wrapped own cause ih => simp [first?_wrapped]
  | labelled label inner ih => rw [first?_labelled, ← ih, chain]
  | joined members ih =>
      rw [first?_joined, chain]
      induction members with
      | nil => rfl
      | cons member members ihs =>
          have hrest := ihs fun m hm => ih m (List.mem_cons_of_mem member hm)
          have hmember := ih member List.mem_cons_self
          rw [firstChain, List.findSome?_cons, hmember]
          cases hfirst : member.first? with
          | none => simpa using hrest
          | some g =>
              obtain ⟨own, hown⟩ := own?_of_first? hfirst
              obtain rfl | ⟨cause, rfl⟩ := eq_of_own? hown <;> rfl

theorem chain_congr {f g : Fault} (hfirst : f.first? = g.first?) : f.chain = g.chain := by
  rw [chain_eq f, chain_eq g, hfirst]

theorem mem_chain_iff (f : Fault) (own : Particulars) :
    own ∈ f.chain ↔ ∃ g, f.Visits g ∧ g.own? = some own := by
  induction f with
  | plain message => simp [chain, visits_iff (.plain message), first?_plain]
  | coded its =>
      have hvisits (g : Fault) : (coded its).Visits g ↔ g = coded its := by
        simp [visits_iff (.coded its), first?_coded, cause?]
      simp [chain, hvisits, own?, eq_comm]
  | wrapped its cause ih =>
      simp only [chain, List.mem_cons, ih, visits_wrapped, or_and_right, exists_or,
        exists_eq_left, own?, Option.some.injEq, eq_comm]
  | labelled label inner ih =>
      simp only [visits_congr (first?_labelled label inner),
        chain_congr (first?_labelled label inner), ih]
  | joined members ih =>
      -- The loop sees joined faults as the first member in which there is something to find.
      cases hfirst : members.findSome? first? with
      | none =>
          have hnone := (first?_joined members).trans hfirst
          simp [chain_eq (.joined members), visits_iff (.joined members), hnone]
      | some g =>
          obtain ⟨member, hmember, hits⟩ := List.exists_of_findSome?_eq_some hfirst
          have hsame : (joined members).first? = member.first? := by
            rw [first?_joined, hfirst, hits]
          simp only [visits_congr hsame, chain_congr hsame, ih member hmember]

theorem hasCode_eq_true_iff (f : Fault) (code : Code) :
    f.hasCode code = true ↔ ∃ own ∈ f.chain, own.code = code := by
  simp [hasCode]

/--
A search answers yes if a coded fault that its loop looks at has the code.  The loop
looks at the coded faults of the tree that no joined sibling hides.  So a yes always
comes from some coded fault of the tree, and where no joined members compete, the
answer is yes if and only if some coded fault anywhere in the tree has the code.
-/
theorem hasCode_iff (f : Fault) (code : Code) :
    (f.hasCode code = true ↔ ∃ g own, f.Visits g ∧ g.own? = some own ∧ own.code = code) ∧
      (∀ g own, g.own? = some own → (f.Visits g ↔ f.Reaches g)) ∧
      (f.hasCode code = true → ∃ own, f.Holds own ∧ own.code = code) ∧
      (f.Unforked → (f.hasCode code = true ↔ ∃ own, f.Holds own ∧ own.code = code)) := by
  have hloop : f.hasCode code = true ↔
      ∃ g own, f.Visits g ∧ g.own? = some own ∧ own.code = code := by
    rw [hasCode_eq_true_iff]
    constructor
    · rintro ⟨own, hown, hcode⟩
      obtain ⟨g, hvisits, hown⟩ := (mem_chain_iff f own).mp hown
      exact ⟨g, own, hvisits, hown, hcode⟩
    · rintro ⟨g, own, hvisits, hown, hcode⟩
      exact ⟨own, (mem_chain_iff f own).mpr ⟨g, hvisits, hown⟩, hcode⟩
  have hsound : f.hasCode code = true → ∃ own, f.Holds own ∧ own.code = code := by
    intro h
    obtain ⟨g, own, hvisits, hown, hcode⟩ := hloop.mp h
    exact ⟨own, ⟨g, (reaches_of_visits f g hvisits).above, hown⟩, hcode⟩
  refine ⟨hloop, fun g own hown => ⟨reaches_of_visits f g, visits_of_reaches hown⟩, hsound,
    fun hunforked => ⟨hsound, ?_⟩⟩
  rintro ⟨own, ⟨g, habove, hown⟩, hcode⟩
  exact hloop.mpr ⟨g, own, visits_of_reaches hown (hunforked.reaches hown habove), hown, hcode⟩

def unforkedSample : Fault :=
  .labelled (utf8 "run") (.wrapped { message := utf8 "load", code := .inputOutput }
    (.joined [.plain (utf8 "eof"), .coded { message := utf8 "parse", code := .grammatical }]))

theorem hasCode_unforkedSample :
    unforkedSample.Unforked ∧ unforkedSample.hasCode .grammatical = true ∧
      ∃ own, unforkedSample.Holds own ∧ own.code = .grammatical := by
  have hunforked : unforkedSample.Unforked := by
    intro members habove
    rw [← mem_nodes] at habove
    obtain rfl : members =
        [.plain (utf8 "eof"), .coded { message := utf8 "parse", code := .grammatical }] := by
      simpa [unforkedSample, nodes, nodesOf] using habove
    exact List.pairwise_pair.mpr (.inl ((first?_eq_none_iff _).mp (first?_plain _)))
  have hanswer : unforkedSample.hasCode .grammatical = true := by decide +kernel
  exact ⟨hunforked, hanswer,
    ((hasCode_iff unforkedSample .grammatical).2.2.2 hunforked).mp hanswer⟩

/-- The second of two joined faults: the search stops at the first one. -/
theorem hasCode_misses_joined_sibling :
    ∃ f own, f = joined [.coded { message := utf8 "a", code := utf8 "A" },
        .coded { message := utf8 "b", code := utf8 "B" }] ∧
      own.code = utf8 "B" ∧ f.Holds own ∧ f.hasCode (utf8 "B") = false := by
  refine ⟨_, { message := utf8 "b", code := utf8 "B" }, rfl, rfl, ?_, by decide +kernel⟩
  exact ⟨.coded _, .single (by simp [unwrapped]), rfl⟩

end Fault

end Scriptlet
