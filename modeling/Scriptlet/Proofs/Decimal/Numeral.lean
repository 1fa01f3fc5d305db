import Mathlib.Data.List.TakeWhile
import Scriptlet.Decimal.Reader

/-!
# Plain numerals are numbers

Digits, and digits around one point, are read as a number whatever their
length.  None of their bytes is a sign, a letter or an underscore, so the
reader goes straight to the decimal mantissa.
-/

namespace Scriptlet.Decimal

/-! ## The bytes of plain numerals -/

def Plain (b : UInt8) : Prop := Bytes.isDigit b = true ∨ b = point

theorem Plain.toNat {b : UInt8} (h : Plain b) :
    0x2E ≤ b.toNat ∧ b.toNat ≤ 0x39 := by
  rcases h with hdigit | rfl
  · simp only [Bytes.isDigit, Bool.and_eq_true, decide_eq_true_eq,
      UInt8.le_iff_toNat_le, UInt8.reduceToNat] at hdigit
    omega
  · decide

theorem Plain.ne {b c : UInt8} (h : Plain b)
    (hc : c.toNat < 0x2E ∨ 0x39 < c.toNat) : b ≠ c := by
  rintro rfl
  have hb := h.toNat
  omega

theorem Plain.lowerAscii {b : UInt8} (h : Plain b) : Bytes.lowerAscii b = b := by
  have hb := h.toNat
  rw [Bytes.lowerAscii, if_neg]
  simp only [Bytes.isUpper, Bool.and_eq_true, decide_eq_true_eq,
    UInt8.le_iff_toNat_le, UInt8.reduceToNat]
  omega

section PlainText

variable {s : Bytes} (hs : ∀ b ∈ s, Plain b)
include hs

private theorem splitSign_of_plain : splitSign s = (false, s) := by
  unfold splitSign
  split
  · exact ((hs 0x2B (by simp)).ne (.inl (by decide)) rfl).elim
  · exact ((hs 0x2D (by simp)).ne (.inl (by decide)) rfl).elim
  · rfl

private theorem lower_of_plain : s.map Bytes.lowerAscii = s := by
  rw [List.map_congr_left (fun b hb => (hs b hb).lowerAscii), List.map_id']

private theorem splitRadix?_of_plain : splitRadix? s = none := by
  unfold splitRadix?
  split
  · rename_i mark rest
    have hmark := hs mark (by simp)
    have hb : mark ≠ 0x62 := hmark.ne (.inr (by decide))
    have ho : mark ≠ 0x6F := hmark.ne (.inr (by decide))
    have hx : mark ≠ 0x78 := hmark.ne (.inr (by decide))
    simp [hmark.lowerAscii, hb, ho, hx]
  · rfl

private theorem withoutUnderscores_of_plain : withoutUnderscores s = s := by
  apply List.filter_eq_self.mpr
  intro b hb
  have hne : b ≠ underscore := (hs b hb).ne (.inr (by decide))
  simpa using hne

private theorem contains_underscore_of_plain : s.contains underscore = false := by
  rw [List.contains_eq_mem, decide_eq_false_iff_not]
  intro hmem
  exact (hs underscore hmem).ne (.inr (by decide)) rfl

theorem ne_utf8_of_plain {word : Bytes} (c : UInt8) (hc : c ∈ word)
    (hletter : 0x39 < c.toNat) : (s == word) = false := by
  rw [beq_eq_false_iff_ne]
  rintro rfl
  exact (hs c hc).ne (.inr hletter) rfl

private theorem takeWhile_of_plain :
    (s.takeWhile fun b => !(Bytes.lowerAscii b == 0x65)) = s ∧
      (s.dropWhile fun b => !(Bytes.lowerAscii b == 0x65)) = [] := by
  have hall : ∀ b ∈ s, (!(Bytes.lowerAscii b == 0x65)) = true := by
    intro b hb
    have hne : b ≠ 0x65 := (hs b hb).ne (.inr (by decide))
    simpa [(hs b hb).lowerAscii] using hne
  exact ⟨List.takeWhile_eq_self_iff.mpr hall, List.dropWhile_eq_nil_iff.mpr hall⟩

/-! ## Reading them -/

private theorem decimal?_of_plain {parts : Bytes × Bytes}
    (hparts : mantissa? Bytes.isDigit s = some parts) : ∃ x, decimal? s = some x := by
  obtain ⟨htake, hdrop⟩ := takeWhile_of_plain hs
  refine ⟨nearest (Bytes.digitsValue ((parts.1 ++ parts.2).dropWhile (· == 0x30)))
    ((parts.1 ++ parts.2).dropWhile (· == 0x30)).length (0 - parts.2.length), ?_⟩
  simp only [decimal?, htake, hdrop, withoutUnderscores_of_plain hs, hparts]

theorem read?_of_plain {parts : Bytes × Bytes}
    (hparts : mantissa? Bytes.isDigit s = some parts) : ∃ x, read? s = some x := by
  obtain ⟨x, hx⟩ := decimal?_of_plain hs hparts
  refine ⟨negativeIf false x, ?_⟩
  have hinf : (s == utf8 "inf") = false :=
    ne_utf8_of_plain hs 0x69 (by decide) (by decide)
  have hinfinity : (s == utf8 "infinity") = false :=
    ne_utf8_of_plain hs 0x69 (by decide) (by decide)
  have hnan : (s == utf8 "nan") = false :=
    ne_utf8_of_plain hs 0x6E (by decide) (by decide)
  simp only [read?, splitSign_of_plain hs, lower_of_plain hs, hinf, hinfinity, hnan,
    contains_underscore_of_plain hs, splitRadix?_of_plain hs, hx]
  rfl

end PlainText

theorem not_point_of_isDigit {b : UInt8} (h : Bytes.isDigit b = true) : b ≠ point := by
  rintro rfl
  exact absurd h (by decide)

private theorem mantissa?_digits {whole : Bytes} (hne : whole ≠ [])
    (hwhole : ∀ b ∈ whole, Bytes.isDigit b = true) :
    mantissa? Bytes.isDigit whole = some (whole, []) := by
  have hcut : Bytes.cut? point whole = none := by
    have hdrop : whole.dropWhile (· != point) = [] := by
      apply List.dropWhile_eq_nil_iff.mpr
      intro b hb
      simpa using not_point_of_isDigit (hwhole b hb)
    rw [Bytes.cut?, hdrop]
  have hall : whole.all Bytes.isDigit = true := List.all_eq_true.mpr hwhole
  simp [mantissa?, hcut, hall, hne]

private theorem mantissa?_point {whole fraction : Bytes} (hne : whole ≠ [])
    (hwhole : ∀ b ∈ whole, Bytes.isDigit b = true)
    (hfraction : ∀ b ∈ fraction, Bytes.isDigit b = true) :
    mantissa? Bytes.isDigit (whole ++ point :: fraction) = some (whole, fraction) := by
  have hpass : ∀ b ∈ whole, (b != point) = true := by
    intro b hb
    simpa using not_point_of_isDigit (hwhole b hb)
  have hcut : Bytes.cut? point (whole ++ point :: fraction) = some (whole, fraction) := by
    simp [Bytes.cut?, List.dropWhile_append_of_pos hpass,
      List.takeWhile_append_of_pos hpass]
  have hall : (whole ++ fraction).all Bytes.isDigit = true := by
    rw [List.all_append, List.all_eq_true.mpr hwhole, List.all_eq_true.mpr hfraction]
    rfl
  simp [mantissa?, hcut, hall, hne]

theorem read?_digits {whole : Bytes} (hne : whole ≠ [])
    (hwhole : ∀ b ∈ whole, Bytes.isDigit b = true) : ∃ x, read? whole = some x :=
  read?_of_plain (fun b hb => .inl (hwhole b hb)) (mantissa?_digits hne hwhole)

theorem read?_point {whole fraction : Bytes} (hne : whole ≠ [])
    (hwhole : ∀ b ∈ whole, Bytes.isDigit b = true)
    (hfraction : ∀ b ∈ fraction, Bytes.isDigit b = true) :
    ∃ x, read? (whole ++ point :: fraction) = some x := by
  refine read?_of_plain ?_ (mantissa?_point hne hwhole hfraction)
  intro b hb
  rcases List.mem_append.mp hb with hmem | hmem
  · exact .inl (hwhole b hmem)
  · rcases List.mem_cons.mp hmem with rfl | hmem
    · exact .inr rfl
    · exact .inl (hfraction b hmem)

end Scriptlet.Decimal
