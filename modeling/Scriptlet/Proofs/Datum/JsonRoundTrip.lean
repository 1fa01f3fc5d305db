import Mathlib.Data.List.Forall2
import Scriptlet.Proofs.Datum.JsonNumerals
import Scriptlet.Proofs.Datum.JsonTexts
import Scriptlet.Proofs.Text.Pieces

/-!
# Data read back from JSON

A value that has a JSON form is written as one printable text, and the reader finds
the value's tree in it (`says_of_ofDatum?`).
-/

namespace Scriptlet

@[induction_eliminator]
theorem Datum.induction {P : Datum → Prop} (nil : P .nil) (int : ∀ i, P (.int i))
    (float : ∀ x, P (.float x)) (text : ∀ s, P (.text s)) (bool : ∀ b, P (.bool b))
    (list : ∀ items, (∀ item ∈ items, P item) → P (.list items))
    (map : ∀ entries, (∀ entry ∈ entries, P entry.2) → P (.map entries))
    (error : ∀ message exported, (∀ entry ∈ exported, P entry.2) → P (.error message exported))
    (d : Datum) : P d :=
  @Datum.rec P (fun items => ∀ item ∈ items, P item) (fun entries => ∀ entry ∈ entries, P entry.2)
    (fun entry => P entry.2) nil int float text bool list map error
    (fun _ hmem => nomatch hmem) (fun _ _ hfirst hrest => List.forall_mem_cons.mpr ⟨hfirst, hrest⟩)
    (fun _ hmem => nomatch hmem) (fun _ _ hfirst hrest => List.forall_mem_cons.mpr ⟨hfirst, hrest⟩)
    (fun _ _ hvalue => hvalue) d

namespace Json

mutual

/-- What the JSON form of a value says: texts are repaired, an error is what it exports. -/
def tree : Datum → Tree
  | .nil => .null
  | .int i => .number (Bytes.ofInt i)
  | .float x => .number (Decimal.json.write x)
  | .text s => .text (Utf8.repair s)
  | .bool b => .bool b
  | .list items => .array (trees items)
  | .map entries => .object (memberTrees entries)
  | .error _ exported => .object (memberTrees exported)

def trees : List Datum → List Tree
  | [] => []
  | item :: items => tree item :: trees items

def memberTrees : List (Bytes × Datum) → List (Bytes × Tree)
  | [] => []
  | (key, value) :: entries => (Utf8.repair key, tree value) :: memberTrees entries

end

theorem memberTrees_eq (entries : List (Bytes × Datum)) :
    memberTrees entries = entries.map fun entry => (Utf8.repair entry.1, tree entry.2) := by
  induction entries with
  | nil => rfl
  | cons entry entries ih => rw [memberTrees, ih, List.map_cons]

/-! ## Sequences -/

/-- The reader finds `x` in `out`, whatever stands behind it that is no numeral. -/
def Reads {α : Type} (read : Bytes → Option (α × Bytes)) (out : Bytes) (x : α) : Prop :=
  ∀ rest, Stops rest → read (out ++ rest) = some (x, rest)

theorem stops_cons {b : UInt8} (hb : isNumeralByte b = false) (rest : Bytes) :
    Stops (b :: rest) := by
  rintro b' ⟨⟩
  exact hb

theorem join_cons_cons (first second : Bytes) (outs : List Bytes) :
    Bytes.join comma (first :: second :: outs) =
      first ++ 0x2C :: Bytes.join comma (second :: outs) := by
  simp [Bytes.join, List.intercalate, comma]

private theorem length_le_join (outs : List Bytes) :
    outs.length ≤ (Bytes.join comma outs).length + 1 ∧
      ∀ out ∈ outs, out.length ≤ (Bytes.join comma outs).length := by
  induction outs with
  | nil => simp
  | cons first outs ih =>
      cases outs with
      | nil => simp [Bytes.join]
      | cons second outs =>
          obtain ⟨hcount, heach⟩ := ih
          rw [join_cons_cons]
          simp only [List.length_append, List.length_cons] at hcount heach ⊢
          refine ⟨by omega, List.forall_mem_cons.mpr ⟨by omega, fun out hout => ?_⟩⟩
          have hle := heach out hout
          omega

section Sequences

variable {α : Type} {read : Bytes → Option (α × Bytes)} {closing : UInt8}

private theorem sequence_join (hcomma : closing ≠ 0x2C) (hstop : isNumeralByte closing = false)
    {outs : List Bytes} {xs : List α} (h : List.Forall₂ (Reads read) outs xs) (hne : outs ≠ [])
    {fuel : Nat} (hfuel : outs.length ≤ fuel) (rest : Bytes) :
    sequence read closing fuel (Bytes.join comma outs ++ closing :: rest) = some (xs, rest) := by
  induction h generalizing fuel with
  | nil => exact absurd rfl hne
  | @cons out x outs xs hout houts ih =>
      obtain ⟨fuel, rfl⟩ : ∃ n, fuel = n + 1 := by
        cases fuel with
        | zero => simp at hfuel
        | succ n => exact ⟨n, rfl⟩
      cases houts with
      | nil =>
          have hjoin : Bytes.join comma [out] = out := by simp [Bytes.join]
          rw [hjoin, sequence, hout _ (stops_cons hstop rest)]
          simp
      | @cons next y outs ys hnext houts =>
          have hrest := ih (List.cons_ne_nil next outs) (Nat.le_of_succ_le_succ hfuel)
          rw [join_cons_cons, List.append_assoc, List.cons_append, sequence,
            hout _ (stops_cons (by decide) _)]
          simp [hcomma.symm, hrest]

theorem items_join (hcomma : closing ≠ 0x2C) (hstop : isNumeralByte closing = false)
    (hclosing : ∀ s, read (closing :: s) = none) {outs : List Bytes} {xs : List α} {fuel : Nat}
    (h : List.Forall₂ (fun out x => out.length ≤ fuel → Reads read out x) outs xs)
    (hfuel : (Bytes.join comma outs ++ [closing]).length ≤ fuel) (rest : Bytes) :
    items read closing fuel (Bytes.join comma outs ++ closing :: rest) = some (xs, rest) := by
  obtain ⟨hcount, heach⟩ := length_le_join outs
  rw [List.length_append, List.length_singleton] at hfuel
  have hreads : List.Forall₂ (Reads read) outs xs :=
    ((List.forall₂_and_left _ _).mpr ⟨heach, h⟩).imp fun _ _ hout => hout.2 (by omega)
  cases hreads with
  | nil => simp [Bytes.join, items]
  | @cons out x outs xs hout houts =>
      have hlength : (out :: outs).length ≤ fuel := by omega
      have hread := sequence_join hcomma hstop (.cons hout houts) (List.cons_ne_nil out outs)
        hlength rest
      -- The reader of items does not take the closing byte, so the first item begins with another.
      obtain ⟨b, more, rfl, hb⟩ : ∃ b more, out = b :: more ∧ b ≠ closing := by
        cases out with
        | nil =>
            have hfirst := hout (closing :: rest) (stops_cons hstop rest)
            rw [List.nil_append, hclosing] at hfirst
            cases hfirst
        | cons b more =>
            refine ⟨b, more, rfl, ?_⟩
            rintro rfl
            have hfirst := hout [] (by simp [Stops])
            rw [List.cons_append, hclosing] at hfirst
            cases hfirst
      rw [Bytes.join_cons, List.cons_append, List.cons_append] at hread ⊢
      rw [items, if_neg (by simpa using hb)]
      exact hread

private theorem reads_member {out : Bytes} {x : α} (h : Reads read out x)
    (replacement : Replacement)
    (key : Bytes) :
    Reads (member read) (string replacement key ++ utf8 ":" ++ out) (Utf8.repair key, x) := by
  intro rest hrest
  have hcolon : utf8 ":" = [0x3A] := by decide
  rw [string, hcolon]
  simp only [List.cons_append, List.append_assoc, member, beq_self_eq_true, if_true,
    List.nil_append]
  have hkey := text?_string replacement key (0x3A :: (out ++ rest))
  simp only [List.append_assoc, List.cons_append, List.nil_append] at hkey
  simp only [hkey, h rest hrest, Option.map_some]

end Sequences

/-! ## Values -/

/-- A JSON text of the tree on one line. -/
structure Says (out : Bytes) (t : Tree) : Prop where
  reads : ∀ fuel, out.length ≤ fuel → Reads (value fuel) out t
  printable : Utf8.Printable out

def SaysMember (out : Bytes) (member : Bytes × Tree) : Prop :=
  ∃ replacement key form, out = string replacement key ++ utf8 ":" ++ form ∧
    member.1 = Utf8.repair key ∧ Says form member.2

theorem exists_succ {front : Bytes} {b : UInt8} {fuel : Nat}
    (h : (b :: front).length ≤ fuel) : ∃ n, fuel = n + 1 ∧ front.length ≤ n := by
  rw [List.length_cons] at h
  exact ⟨fuel - 1, by omega, by omega⟩

theorem says_word {name : String} {t : Tree} {b : UInt8} {more : Bytes}
    (hname : utf8 name = b :: more) (hprintable : Utf8.Printable (utf8 name))
    (hvalue : ∀ fuel rest, value (fuel + 1) (b :: rest) = word name t (b :: rest)) :
    Says (utf8 name) t := by
  refine ⟨fun fuel hfuel rest hrest => ?_, hprintable⟩
  rw [hname] at hfuel
  obtain ⟨n, rfl, -⟩ := exists_succ hfuel
  have hstarts : Bytes.startsWith (utf8 name ++ rest) (utf8 name) = true :=
    List.isPrefixOf_iff_prefix.mpr (List.prefix_append _ _)
  have hword : word name t (utf8 name ++ rest) = some (t, rest) := by
    rw [word, hstarts, List.drop_left]
    rfl
  rw [hname, List.cons_append, hvalue, ← List.cons_append, ← hname, hword]

private theorem bounds_of_isNumeralByte {b : UInt8} (h : isNumeralByte b = true) :
    0x20 ≤ b.toNat ∧ b.toNat < 0x80 := by
  have hmarks : ∀ b ∈ utf8 "+-.eE", 0x20 ≤ b.toNat ∧ b.toNat < 0x80 :=
    Bytes.forall_of_all (by decide)
  rcases Bool.or_eq_true_iff.mp h with hdigit | hmark
  · rw [Bytes.isDigit_iff] at hdigit
    omega
  · exact hmarks b (List.contains_iff_mem.mp hmark)

theorem says_numeral {out : Bytes} (h : isNumeral out = true) : Says out (.number out) := by
  have hbytes : ∀ b ∈ out, isNumeralByte b = true := fun b => isNumeralByte_of_isNumeral h
  refine ⟨fun fuel hfuel rest hrest => ?_,
    Utf8.printable_of_ascii fun b hb => bounds_of_isNumeralByte (hbytes b hb)⟩
  obtain ⟨b, more, rfl⟩ : ∃ b more, out = b :: more := by
    refine List.exists_cons_of_ne_nil ?_
    rintro rfl
    exact absurd h (by decide)
  obtain ⟨n, rfl, -⟩ := exists_succ hfuel
  have hne {c : UInt8} (hc : isNumeralByte c = false) : ¬(b == c) = true := by
    rw [beq_iff_eq]
    rintro rfl
    rw [hbytes b List.mem_cons_self] at hc
    cases hc
  rw [List.cons_append, value, if_neg (hne (by decide)), if_neg (hne (by decide)),
    if_neg (hne (by decide)), if_neg (hne (by decide)), if_neg (hne (by decide)),
    if_neg (hne (by decide)), ← List.cons_append]
  exact number_append h hrest

private theorem says_string (replacement : Replacement) (s : Bytes) :
    Says (string replacement s) (.text (Utf8.repair s)) := by
  refine ⟨fun fuel hfuel rest hrest => ?_, printable_string replacement s⟩
  rw [string, List.cons_append] at hfuel
  obtain ⟨n, rfl, -⟩ := exists_succ hfuel
  rw [string, List.cons_append, List.cons_append, value, if_pos (beq_self_eq_true quote),
    text?_string replacement s rest]
  rfl

/-! ## Arrays and objects -/

theorem forall_of_forall₂ {α β : Type} {R : α → β → Prop} {p : α → Prop} {l : List α} {u : List β}
    (h : List.Forall₂ R l u) (hp : ∀ a b, R a b → p a) : ∀ a ∈ l, p a :=
  ((List.forall₂_and_left _ _).mp (h.imp fun a b hab => ⟨hp a b hab, hab⟩)).1

theorem printable_enclosed {outs : List Bytes} {opening closing : Bytes}
    (hopening : Utf8.Printable opening) (hclosing : Utf8.Printable closing)
    (houts : ∀ out ∈ outs, Utf8.Printable out) :
    Utf8.Printable (opening ++ Bytes.join comma outs ++ closing) := by
  have hcomma : Utf8.Printable comma := Utf8.printable_of_ascii (Bytes.forall_of_all (by decide))
  exact (hopening.append (Utf8.printable_join hcomma houts)).append hclosing

private theorem value_closing (fuel : Nat) (s : Bytes) : value fuel (0x5D :: s) = none := by
  cases fuel <;> rfl

private theorem member_closing (fuel : Nat) (s : Bytes) :
    member (value fuel) (0x7D :: s) = none := rfl

private theorem says_array {outs : List Bytes} {ts : List Tree} (h : List.Forall₂ Says outs ts) :
    Says (array outs) (.array ts) := by
  refine ⟨fun fuel hfuel rest hrest => ?_, ?_⟩
  · have hsplit : array outs = 0x5B :: (Bytes.join comma outs ++ [0x5D]) := rfl
    rw [hsplit] at hfuel
    obtain ⟨n, rfl, hn⟩ := exists_succ hfuel
    have hitems := items_join (by decide) (by decide) (value_closing n)
      (h.imp fun out t hout => hout.reads n) hn rest
    rw [hsplit, List.cons_append, List.append_assoc, List.singleton_append, value,
      if_neg (by decide), if_pos (by decide), hitems]
    rfl
  · exact printable_enclosed (Utf8.printable_utf8 (by decide)) (Utf8.printable_utf8 (by decide))
      (forall_of_forall₂ h fun _ _ => Says.printable)

theorem SaysMember.reads {out : Bytes} {entry : Bytes × Tree} (h : SaysMember out entry) (n : Nat)
    (hn : out.length ≤ n) : Reads (member (value n)) out entry := by
  obtain ⟨replacement, key, form, rfl, hkey, hform⟩ := h
  rw [List.length_append] at hn
  rw [← Prod.mk.eta (p := entry), hkey]
  exact reads_member (hform.reads n (by omega)) replacement key

theorem SaysMember.printable {out : Bytes} {entry : Bytes × Tree} (h : SaysMember out entry) :
    Utf8.Printable out := by
  obtain ⟨replacement, key, form, rfl, -, hform⟩ := h
  exact ((printable_string replacement key).append (Utf8.printable_utf8 (by decide))).append
    hform.printable

theorem says_object {outs : List Bytes} {members : List (Bytes × Tree)}
    (h : List.Forall₂ SaysMember outs members) : Says (object outs) (.object members) := by
  refine ⟨fun fuel hfuel rest hrest => ?_, ?_⟩
  · have hsplit : object outs = 0x7B :: (Bytes.join comma outs ++ [0x7D]) := rfl
    rw [hsplit] at hfuel
    obtain ⟨n, rfl, hn⟩ := exists_succ hfuel
    have hitems := items_join (by decide) (by decide) (member_closing n)
      (h.imp fun out entry hout => hout.reads n) hn rest
    rw [hsplit, List.cons_append, List.append_assoc, List.singleton_append, value,
      if_neg (by decide), if_neg (by decide), if_pos (by decide), hitems]
    rfl
  · exact printable_enclosed (Utf8.printable_utf8 (by decide)) (Utf8.printable_utf8 (by decide))
      (forall_of_forall₂ h fun _ _ => SaysMember.printable)

/-! ## Data -/

variable {replacement : Replacement}

private theorem forall₂_of_items? {items : List Datum} {outs : List Bytes}
    (hitems : ∀ item ∈ items, ∀ out, ofDatum? replacement item = some out → Says out (tree item))
    (h : items? replacement items = some outs) : List.Forall₂ Says outs (trees items) := by
  induction items generalizing outs with
  | nil =>
      obtain rfl := Option.some.inj h
      exact .nil
  | cons item items ih =>
      obtain ⟨hitem, hitems⟩ := List.forall_mem_cons.mp hitems
      rw [items?] at h
      split at h
      · rename_i first rest hfirst hrest
        obtain rfl := Option.some.inj h
        exact .cons (hitem first hfirst) (ih hitems hrest)
      · cases h

theorem forall₂_of_members? {entries : List (Bytes × Datum)} {outs : List Bytes}
    (hentries : ∀ entry ∈ entries, ∀ out, ofDatum? replacement entry.2 = some out →
      Says out (tree entry.2))
    (h : members? replacement entries = some outs) :
    List.Forall₂ SaysMember outs (memberTrees entries) := by
  induction entries generalizing outs with
  | nil =>
      obtain rfl := Option.some.inj h
      exact .nil
  | cons entry entries ih =>
      obtain ⟨key, d⟩ := entry
      obtain ⟨hentry, hentries⟩ := List.forall_mem_cons.mp hentries
      rw [members?] at h
      split at h
      · rename_i first rest hfirst hrest
        obtain rfl := Option.some.inj h
        exact .cons ⟨replacement, key, first, rfl, rfl, hentry first hfirst⟩ (ih hentries hrest)
      · cases h

theorem says_of_ofDatum? {d : Datum} {out : Bytes} (h : ofDatum? replacement d = some out) :
    Says out (tree d) := by
  induction d generalizing out with
  | nil =>
      obtain rfl := Option.some.inj h
      exact says_word rfl (Utf8.printable_utf8 (by decide)) fun fuel rest => rfl
  | int i =>
      obtain rfl := Option.some.inj h
      exact says_numeral (isNumeral_ofInt i)
  | float x =>
      obtain ⟨hnumeral, hwrite⟩ := isNumeral_of_number? h
      rw [tree, ← hwrite]
      exact says_numeral hnumeral
  | text s =>
      obtain rfl := Option.some.inj h
      exact says_string replacement s
  | bool b =>
      obtain rfl := Option.some.inj h
      cases b with
      | true => exact says_word rfl (Utf8.printable_utf8 (by decide)) fun fuel rest => rfl
      | false => exact says_word rfl (Utf8.printable_utf8 (by decide)) fun fuel rest => rfl
  | list items ih =>
      obtain ⟨outs, houts, rfl⟩ := Option.map_eq_some_iff.mp h
      exact says_array (forall₂_of_items? (fun item hitem out => ih item hitem) houts)
  | map entries ih =>
      obtain ⟨outs, houts, rfl⟩ := Option.map_eq_some_iff.mp h
      exact says_object (forall₂_of_members? (fun entry hentry out => ih entry hentry) houts)
  | error message exported ih =>
      obtain ⟨outs, houts, rfl⟩ := Option.map_eq_some_iff.mp h
      exact says_object (forall₂_of_members? (fun entry hentry out => ih entry hentry) houts)

theorem ofBytes?_of_ofDatum? {d : Datum} {out : Bytes} (h : ofDatum? replacement d = some out) :
    ofBytes? out = some (tree d) := by
  have hreads := (says_of_ofDatum? h).reads out.length le_rfl [] (by simp [Stops])
  rw [List.append_nil] at hreads
  rw [ofBytes?, hreads]

/-- Other forms of the same list are refused: blanks, and a zero in front of a number. -/
example : ofBytes? (utf8 "[null,5,true]") = some (tree (.list [.nil, .int 5, .bool true])) ∧
    ofBytes? (utf8 "[null, 5, true]") = none ∧ ofBytes? (utf8 "[null,05,true]") = none :=
  ⟨rfl, rfl, rfl⟩

end Json

end Scriptlet
