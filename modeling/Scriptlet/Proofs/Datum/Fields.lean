import Mathlib.Data.List.Nodup
import Scriptlet.Datum.Basic

/-!
# Fields as a map

What stands under a key after fields were set or merged (`get?_set`,
`get?_merge`), and the order of the keys, which both keep (`Ordered.merge`).
-/

namespace Scriptlet.Fields

def mapValues (change : Datum → Datum) (fields : Fields) : Fields :=
  fields.map fun entry => (entry.1, change entry.2)

def keys (fields : Fields) : List Bytes := fields.map Prod.fst

def Ordered (fields : Fields) : Prop := (keys fields).Pairwise (· < ·)

theorem Ordered.nodup {fields : Fields} (h : Ordered fields) : (keys fields).Nodup := by
  refine List.Pairwise.imp ?_ h
  rintro a b hlt rfl
  exact List.lt_irrefl a hlt

/-! ## Looking up -/

@[simp]
theorem get?_nil (key : Bytes) : get? [] key = none := rfl

@[simp]
theorem get?_cons (k : Bytes) (v : Datum) (rest : Fields) (key : Bytes) :
    get? ((k, v) :: rest) key = if k = key then some v else get? rest key := by
  by_cases h : k = key <;> simp [get?, h]

theorem get?_append (fields other : Fields) (key : Bytes) :
    get? (fields ++ other) key = (get? fields key).or (get? other key) := by
  rw [get?, get?, get?, List.find?_append]
  cases fields.find? fun entry => entry.1 == key <;> rfl

theorem get?_eq_none_iff {fields : Fields} {key : Bytes} :
    get? fields key = none ↔ key ∉ keys fields := by
  induction fields with
  | nil => simp [keys]
  | cons entry fields ih =>
      have hkeys : keys (entry :: fields) = entry.1 :: keys fields := rfl
      rw [get?_cons, hkeys, List.mem_cons, not_or, ← ih]
      by_cases h : entry.1 = key
      · simp [h]
      · simp [h, Ne.symm h]

theorem get?_map (change : Datum → Datum) (fields : Fields) (key : Bytes) :
    get? (mapValues change fields) key = (get? fields key).map change := by
  induction fields with
  | nil => rfl
  | cons entry fields ih =>
      rw [mapValues, List.map_cons, get?_cons, get?_cons]
      split
      · rfl
      · exact ih

theorem get?_reverse {fields : Fields} (h : (keys fields).Nodup) (key : Bytes) :
    get? fields.reverse key = get? fields key := by
  induction fields with
  | nil => rfl
  | cons entry fields ih =>
      obtain ⟨hfirst, hrest⟩ := List.nodup_cons.mp h
      rw [List.reverse_cons, get?_append, ih hrest, get?_cons, get?_cons]
      by_cases hkey : entry.1 = key
      · simp [hkey, get?_eq_none_iff.mpr (hkey ▸ hfirst)]
      · simp [hkey]

theorem mem_iff_get? {fields : Fields} (h : (keys fields).Nodup) {key : Bytes} {value : Datum} :
    (key, value) ∈ fields ↔ get? fields key = some value := by
  induction fields with
  | nil => simp
  | cons entry fields ih =>
      obtain ⟨hfirst, hrest⟩ := List.nodup_cons.mp h
      rw [List.mem_cons, get?_cons, ih hrest]
      by_cases hkey : entry.1 = key
      · have hnone : get? fields key = none := get?_eq_none_iff.mpr (hkey ▸ hfirst)
        simp [Prod.ext_iff, hkey, hnone, eq_comm]
      · simp [Prod.ext_iff, hkey, Ne.symm hkey]

/-! ## Setting and merging -/

theorem get?_set (fields : Fields) (key : Bytes) (value : Datum) (k : Bytes) :
    get? (set key value fields) k = if key = k then some value else get? fields k := by
  induction fields with
  | nil => rw [set, get?_cons]
  | cons entry fields ih =>
      rw [set]
      split
      · rename_i hsame
        obtain rfl := beq_iff_eq.mp hsame
        rw [get?_cons, get?_cons]
        split <;> rfl
      · split
        · rw [get?_cons]
        · rename_i hne _
          rw [get?_cons, get?_cons, ih]
          by_cases hkey : entry.1 = k
          · have hother : key ≠ k := fun h => hne (by simp [h, hkey])
            simp [hkey, hother]
          · simp [hkey]

theorem get?_merge_reverse (fields other : Fields) (key : Bytes) :
    get? (merge fields other) key = (get? other.reverse key).or (get? fields key) := by
  induction other generalizing fields with
  | nil => rfl
  | cons entry other ih =>
      rw [show merge fields (entry :: other) = merge (set entry.1 entry.2 fields) other from rfl,
        ih, get?_set, List.reverse_cons, get?_append, get?_cons]
      cases get? other.reverse key with
      | some value => rfl
      | none => split <;> rfl

theorem get?_merge (fields : Fields) {other : Fields} (h : (keys other).Nodup) (key : Bytes) :
    get? (merge fields other) key = (get? other key).or (get? fields key) := by
  rw [get?_merge_reverse, get?_reverse h]

/-! ## Order -/

private theorem mem_keys_set {fields : Fields} {key k : Bytes} {value : Datum} :
    k ∈ keys (set key value fields) ↔ k = key ∨ k ∈ keys fields := by
  rw [← not_iff_not, ← get?_eq_none_iff, get?_set, not_or, ← get?_eq_none_iff, ite_eq_iff]
  simp [eq_comm]

theorem Ordered.set {fields : Fields} (h : Ordered fields) (key : Bytes) (value : Datum) :
    Ordered (set key value fields) := by
  induction fields with
  | nil => exact List.pairwise_singleton _ _
  | cons entry fields ih =>
      obtain ⟨hfirst, hrest⟩ := List.pairwise_cons.mp h
      rw [Fields.set]
      split
      · rename_i hsame
        obtain rfl := beq_iff_eq.mp hsame
        exact List.pairwise_cons.mpr ⟨hfirst, hrest⟩
      · rename_i hne
        split
        · rename_i hbefore
          have hlt : key < entry.1 := of_decide_eq_true hbefore
          refine List.pairwise_cons.mpr ⟨fun k hk => ?_, h⟩
          rcases List.mem_cons.mp hk with rfl | hk
          · exact hlt
          · exact List.lt_trans hlt (hfirst k hk)
        · rename_i hbefore
          have hlt : entry.1 < key := by
            have hle : entry.1 ≤ key := List.not_lt.mp fun hlt => hbefore (decide_eq_true hlt)
            rcases List.le_iff_lt_or_eq.mp hle with hlt | heq
            · exact hlt
            · exact absurd (beq_iff_eq.mpr heq.symm) hne
          refine List.pairwise_cons.mpr ⟨fun k hk => ?_, ih hrest⟩
          rcases mem_keys_set.mp hk with rfl | hk
          · exact hlt
          · exact hfirst k hk

theorem Ordered.merge {fields : Fields} (h : Ordered fields) (other : Fields) :
    Ordered (merge fields other) := by
  induction other generalizing fields with
  | nil => exact h
  | cons entry other ih => exact ih (h.set entry.1 entry.2)

theorem ordered_ofList (entries : List (Bytes × Datum)) : Ordered (ofList entries) := by
  have hnil : Ordered [] := List.Pairwise.nil
  exact hnil.merge entries

end Scriptlet.Fields
