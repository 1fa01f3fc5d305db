import Mathlib.Data.List.DropRight
import Scriptlet.Text.Bytes

/-!
# Texts and their lines

A text is its lines with newlines between them (`join_pieces`, `pieces_join`).
With a newline behind every line instead, taking newlines off the end takes
empty lines off the end (`dropEndWhile_ended`).
-/

namespace Scriptlet.Bytes

theorem join_cons (separator first : Bytes) (parts : List Bytes) :
    join separator (first :: parts) = first ++ parts.flatMap (separator ++ ·) := by
  induction parts generalizing first with
  | nil => simp [join, List.intercalate]
  | cons second parts ih =>
      rw [List.flatMap_cons, List.append_assoc, ← ih]
      simp [join, List.intercalate]

/-! ## Newlines between lines -/

theorem join_pieces (s : Bytes) : join [newline] (pieces s) = s := List.intercalate_splitOn newline

theorem pieces_join {lines : List Bytes} (hlines : ∀ line ∈ lines, newline ∉ line)
    (hne : lines ≠ []) : pieces (join [newline] lines) = lines :=
  List.splitOn_intercalate newline hlines hne

theorem pieces_ne_nil (s : Bytes) : pieces s ≠ [] := List.splitOn_ne_nil newline s

private theorem pieces_of_not_mem {s : Bytes} (h : newline ∉ s) : pieces s = [s] :=
  List.splitOn_eq_singleton h

theorem not_mem_of_mem_pieces {s line : Bytes} (h : line ∈ pieces s) : newline ∉ line := by
  induction s generalizing line with
  | nil =>
      obtain rfl : line = [] := by simpa [pieces] using h
      exact List.not_mem_nil
  | cons b s ih =>
      obtain ⟨first, more, hpieces⟩ := List.exists_cons_of_ne_nil (pieces_ne_nil s)
      rw [pieces] at hpieces
      rw [pieces, List.splitOn_cons_eq_if_modifyHead, hpieces] at h
      have hrest {other : Bytes} (hmem : other ∈ first :: more) : newline ∉ other := by
        rw [← hpieces] at hmem
        exact ih hmem
      by_cases hb : b = newline
      · rw [if_pos (beq_iff_eq.mpr hb)] at h
        obtain rfl | hmem := List.mem_cons.mp h
        · exact List.not_mem_nil
        · exact hrest hmem
      · rw [if_neg (by simpa using hb), List.modifyHead_cons] at h
        obtain rfl | hmem := List.mem_cons.mp h
        · exact fun hmem => (List.mem_cons.mp hmem).elim (fun h => hb h.symm)
            (hrest List.mem_cons_self)
        · exact hrest (List.mem_cons_of_mem first hmem)

theorem forall_of_all {p : UInt8 → Prop} [DecidablePred p] {s : Bytes}
    (h : (s.all fun b => decide (p b)) = true) : ∀ b ∈ s, p b := by
  simpa using h

theorem newline_not_mem {p : UInt8 → Bool} (hp : p newline = false) {s : Bytes}
    (hs : ∀ b ∈ s, p b = true) : newline ∉ s :=
  fun h => absurd (hs newline h) (by simp [hp])

/-! ## A newline behind every line -/

def ended (lines : List Bytes) : Bytes := lines.flatMap (· ++ [newline])

theorem ended_append (front back : List Bytes) :
    ended (front ++ back) = ended front ++ ended back :=
  List.flatMap_append

theorem ended_concat (front : List Bytes) (last : Bytes) :
    ended (front ++ [last]) = ended front ++ last ++ [newline] := by
  simp [ended]

theorem join_concat (front : List Bytes) (last : Bytes) :
    join [newline] (front ++ [last]) = ended front ++ last := by
  induction front with
  | nil => simp [join, ended]
  | cons line front ih =>
      rw [join] at ih
      rw [join, List.cons_append, List.intercalate_cons_of_ne_nil (by simp), ih]
      simp [ended]

theorem exists_last (s : Bytes) :
    ∃ front last, pieces s = front ++ [last] ∧ s = ended front ++ last ∧ newline ∉ last := by
  obtain ⟨front, last, hpieces⟩ := (pieces s).eq_nil_or_concat'.resolve_left (pieces_ne_nil s)
  refine ⟨front, last, hpieces, ?_, ?_⟩
  · rw [← join_concat, ← hpieces, join_pieces]
  · exact not_mem_of_mem_pieces (s := s) (by simp [hpieces])

private theorem ended_pieces (s : Bytes) : ended (pieces s) = s ++ [newline] := by
  obtain ⟨front, last, hpieces, hs, _⟩ := exists_last s
  rw [hpieces, ended_concat, ← hs]

theorem ended_flatMap_pieces (texts : List Bytes) : ended (texts.flatMap pieces) = ended texts := by
  induction texts with
  | nil => rfl
  | cons first texts ih =>
      rw [List.flatMap_cons, ended_append, ended_pieces, ih]
      simp [ended]

theorem ended_replicate_nil (n : Nat) :
    ended (List.replicate n []) = List.replicate n newline := by
  simp [ended, List.flatMap_replicate]

/-! ## Empty lines at the end -/

/-- The lines without the empty ones at the end. -/
def dropBlank (lines : List Bytes) : List Bytes := lines.rdropWhile List.isEmpty

/-- The last line of a text is empty. -/
def EndsBlank (s : Bytes) : Prop := (pieces s).getLast? = some []

instance (s : Bytes) : Decidable (EndsBlank s) :=
  inferInstanceAs (Decidable ((pieces s).getLast? = some []))

theorem endsBlank_nil : EndsBlank [] := rfl

theorem endsBlank_of_not_mem {s : Bytes} (h : newline ∉ s) : EndsBlank s ↔ s = [] := by
  rw [EndsBlank, pieces_of_not_mem h]
  simp

theorem endsBlank_iff (s : Bytes) : EndsBlank s ↔ s = [] ∨ s.getLast? = some newline := by
  obtain ⟨front, last, hpieces, hs, hlast⟩ := exists_last s
  have hblank : EndsBlank s ↔ last = [] := by simp [EndsBlank, hpieces]
  rw [hblank]
  rcases last.eq_nil_or_concat' with rfl | ⟨init, b, rfl⟩
  · rcases front.eq_nil_or_concat' with rfl | ⟨more, line, rfl⟩
    · simp [hs, ended]
    · simp [hs, ended_concat]
  · have hb : b ≠ newline := by
      rintro rfl
      simp at hlast
    simp [hs, hb]

private theorem dropEndWhile_eq (s : Bytes) :
    dropEndWhile (· == newline) s = s.rdropWhile (· == newline) := rfl

theorem dropEndWhile_ended {lines : List Bytes} (hlines : ∀ line ∈ lines, newline ∉ line) :
    dropEndWhile (· == newline) (ended lines) = join [newline] (dropBlank lines) := by
  -- From the right end: an empty last line is one more newline to drop.
  induction lines using List.reverseRecOn with
  | nil => rfl
  | append_singleton front last ih =>
      rw [ended_concat, dropEndWhile_eq, List.rdropWhile_concat_pos _ _ _ (by simp), dropBlank]
      rcases last.eq_nil_or_concat' with rfl | ⟨init, b, rfl⟩
      · rw [List.append_nil, List.rdropWhile_concat_pos _ _ _ (by simp)]
        exact ih fun line hline => hlines line (List.mem_append_left _ hline)
      · have hb : b ≠ newline := by
          rintro rfl
          simpa using hlines (init ++ [newline]) (by simp)
        rw [List.rdropWhile_concat_neg _ _ _ (by simp), join_concat, ← List.append_assoc,
          List.rdropWhile_concat_neg _ _ _ (by simpa using hb)]

theorem exists_dropBlank (lines : List Bytes) :
    ∃ n, lines = dropBlank lines ++ List.replicate n [] ∧
      (n = 0 ↔ lines.getLast? ≠ some []) := by
  have hblank : lines.rtakeWhile List.isEmpty =
      List.replicate (lines.rtakeWhile List.isEmpty).length [] := by
    refine List.eq_replicate_of_mem fun line hline => ?_
    exact List.isEmpty_iff.mp (List.mem_rtakeWhile_imp hline)
  refine ⟨(lines.rtakeWhile List.isEmpty).length, ?_, ?_⟩
  · rw [← hblank]
    exact List.rdropWhile_append_rtakeWhile.symm
  · rw [List.length_eq_zero_iff, List.rtakeWhile_eq_nil_iff]
    rcases lines.eq_nil_or_concat' with rfl | ⟨front, last, rfl⟩
    · simp
    · simp

theorem dropBlank_eq_nil {lines : List Bytes} (h : join [newline] (dropBlank lines) = []) :
    dropBlank lines = [] := by
  by_contra hne
  have hlast := List.rdropWhile_last_not List.isEmpty lines hne
  rw [← List.dropLast_append_getLast hne, join_concat] at h
  exact hlast (List.isEmpty_iff.mpr (List.append_eq_nil_iff.mp h).2)

theorem getLast?_flatMap_pieces (texts : List Bytes) :
    (texts.flatMap pieces).getLast? = some [] ↔ ∃ last ∈ texts.getLast?, EndsBlank last := by
  rcases texts.eq_nil_or_concat' with rfl | ⟨front, last, rfl⟩
  · simp
  · rw [List.flatMap_append, List.flatMap_singleton,
      List.getLast?_append_of_ne_nil _ (pieces_ne_nil last), List.getLast?_concat]
    simp [EndsBlank]

theorem endsBlank_append (s : Bytes) {t : Bytes} (ht : t ≠ []) :
    EndsBlank (s ++ t) ↔ EndsBlank t := by
  rw [endsBlank_iff, endsBlank_iff, List.getLast?_append_of_ne_nil s ht]
  simp [ht]

theorem endsBlank_concat (s : Bytes) (b : UInt8) : EndsBlank (s ++ [b]) ↔ b = newline := by
  rw [endsBlank_append s (List.cons_ne_nil b []), endsBlank_iff]
  simp

end Scriptlet.Bytes
