import Scriptlet.Proofs.Datum.JsonReader
import Scriptlet.Proofs.Decimal.Leading

/-!
# Numerals in JSON

Integers and finite doubles are written as numerals that the reader takes
(`isNumeral_ofInt`, `isNumeral_of_number?`) and that end where the numeral bytes
end (`number_append`).
-/

namespace Scriptlet.Json

def Stops (rest : Bytes) : Prop := ∀ b ∈ rest.head?, isNumeralByte b = false

/-! ## Bytes of numerals -/

theorem isNumeralByte_of_isDigit {b : UInt8} (h : Bytes.isDigit b = true) :
    isNumeralByte b = true := by
  rw [isNumeralByte, h, Bool.true_or]

theorem isNumeralByte_of_isExponent {s : Bytes} (h : isExponent s = true) {b : UInt8}
    (hb : b ∈ s) : isNumeralByte b = true := by
  unfold isExponent at h
  split at h
  · cases hb
  · rename_i mark rest
    have hmarks : ∀ b ∈ ([0x65, 0x45, 0x2B, 0x2D] : Bytes), isNumeralByte b = true :=
      Bytes.forall_of_all (by decide)
    simp only [Bool.and_eq_true, Bool.or_eq_true, beq_iff_eq, List.all_eq_true] at h
    obtain ⟨⟨hmark, -⟩, hdigits⟩ := h
    rcases List.mem_cons.mp hb with rfl | hb
    · rcases hmark with rfl | rfl <;> exact hmarks _ (by decide)
    · split at hdigits
      · rcases List.mem_cons.mp hb with rfl | hb
        · exact hmarks _ (by decide)
        · exact isNumeralByte_of_isDigit (hdigits b hb)
      · rcases List.mem_cons.mp hb with rfl | hb
        · exact hmarks _ (by decide)
        · exact isNumeralByte_of_isDigit (hdigits b hb)
      · exact isNumeralByte_of_isDigit (hdigits b hb)

theorem isNumeralByte_of_mem_takeWhile {s : Bytes} {b : UInt8}
    (hb : b ∈ s.takeWhile Bytes.isDigit) : isNumeralByte b = true :=
  isNumeralByte_of_isDigit (List.mem_takeWhile_imp hb)

private theorem isNumeralByte_of_isFraction {s : Bytes} (h : isFraction s = true) {b : UInt8}
    (hb : b ∈ s) : isNumeralByte b = true := by
  unfold isFraction at h
  split at h
  · rename_i rest
    obtain ⟨-, hexponent⟩ := Bool.and_eq_true_iff.mp h
    rcases List.mem_cons.mp hb with rfl | hb
    · decide
    · rw [← List.takeWhile_append_dropWhile (p := Bytes.isDigit) (l := rest)] at hb
      rcases List.mem_append.mp hb with hb | hb
      · exact isNumeralByte_of_mem_takeWhile hb
      · exact isNumeralByte_of_isExponent hexponent hb
  · exact isNumeralByte_of_isExponent h hb

theorem isNumeralByte_of_isUnsigned {s : Bytes} (h : isUnsigned s = true) {b : UInt8}
    (hb : b ∈ s) : isNumeralByte b = true := by
  obtain ⟨-, hfraction⟩ := Bool.and_eq_true_iff.mp h
  rw [← List.takeWhile_append_dropWhile (p := Bytes.isDigit) (l := s)] at hb
  rcases List.mem_append.mp hb with hb | hb
  · exact isNumeralByte_of_mem_takeWhile hb
  · exact isNumeralByte_of_isFraction hfraction hb

theorem isNumeralByte_of_isNumeral {s : Bytes} (h : isNumeral s = true) {b : UInt8}
    (hb : b ∈ s) : isNumeralByte b = true := by
  unfold isNumeral at h
  split at h
  · rcases List.mem_cons.mp hb with rfl | hb
    · decide
    · exact isNumeralByte_of_isUnsigned h hb
  · exact isNumeralByte_of_isUnsigned h hb

theorem number_append {numeral rest : Bytes} (h : isNumeral numeral = true) (hrest : Stops rest) :
    number (numeral ++ rest) = some (.number numeral, rest) := by
  have hbytes : ∀ b ∈ numeral, isNumeralByte b = true := fun b => isNumeralByte_of_isNumeral h
  have hstop : rest.takeWhile isNumeralByte = [] ∧ rest.dropWhile isNumeralByte = rest := by
    cases rest with
    | nil => exact ⟨rfl, rfl⟩
    | cons b rest => simp [hrest b rfl]
  rw [number, List.takeWhile_append_of_pos hbytes, List.dropWhile_append_of_pos hbytes, hstop.1,
    hstop.2, List.append_nil]
  exact if_pos h

/-! ## Building numerals -/

private theorem isExponent_digits {digits : Bytes} (hne : digits ≠ [])
    (hdigits : ∀ b ∈ digits, Bytes.isDigit b = true) (negative : Bool) :
    isExponent ((if negative then utf8 "e-" else utf8 "e+") ++ digits) = true := by
  have hall : digits.all Bytes.isDigit = true := List.all_eq_true.mpr hdigits
  have hmarks : (if negative then utf8 "e-" else utf8 "e+") ++ digits =
      0x65 :: (if negative then 0x2D else 0x2B) :: digits := by
    cases negative <;> rfl
  rw [hmarks]
  cases negative <;> simp [isExponent, hall, hne]

theorem not_isDigit_of_isExponent {s : Bytes} (h : isExponent s = true) :
    s.takeWhile Bytes.isDigit = [] ∧ s.dropWhile Bytes.isDigit = s := by
  cases s with
  | nil => exact ⟨rfl, rfl⟩
  | cons mark rest =>
      have hmark : Bytes.isDigit mark = false := by
        simp only [isExponent, Bool.and_eq_true, Bool.or_eq_true, beq_iff_eq] at h
        rcases h.1.1 with rfl | rfl <;> decide
      simp [hmark]

private theorem isFraction_of_isExponent {s : Bytes} (h : isExponent s = true) :
    isFraction s = true := by
  unfold isFraction
  split
  · rename_i rest
    simp [isExponent] at h
  · exact h

theorem isFraction_point {digits exponent : Bytes} (hne : digits ≠ [])
    (hdigits : ∀ b ∈ digits, Bytes.isDigit b = true) (hexponent : isExponent exponent = true) :
    isFraction (0x2E :: (digits ++ exponent)) = true := by
  obtain ⟨htake, hdrop⟩ := not_isDigit_of_isExponent hexponent
  rw [isFraction, List.takeWhile_append_of_pos hdigits, List.dropWhile_append_of_pos hdigits,
    htake, hdrop, List.append_nil, hexponent, Bool.and_true]
  simpa using hne

theorem isUnsigned_append {whole fraction : Bytes}
    (hdigits : ∀ b ∈ whole, Bytes.isDigit b = true) (hwhole : isWhole whole = true)
    (hfraction : isFraction fraction = true) : isUnsigned (whole ++ fraction) = true := by
  have hstop : fraction.takeWhile Bytes.isDigit = [] ∧
      fraction.dropWhile Bytes.isDigit = fraction := by
    unfold isFraction at hfraction
    split at hfraction
    · exact ⟨rfl, rfl⟩
    · exact not_isDigit_of_isExponent hfraction
  rw [isUnsigned, List.takeWhile_append_of_pos hdigits, List.dropWhile_append_of_pos hdigits,
    hstop.1, hstop.2, List.append_nil, hwhole, hfraction]
  rfl

theorem isUnsigned_whole {whole : Bytes} (hdigits : ∀ b ∈ whole, Bytes.isDigit b = true)
    (hwhole : isWhole whole = true) : isUnsigned whole = true := by
  rw [← List.append_nil whole]
  exact isUnsigned_append hdigits hwhole rfl

theorem isWhole_of_head? {digits : Bytes} (hne : digits ≠ []) (hhead : digits.head? ≠ some 0x30) :
    isWhole digits = true := by
  simp [isWhole, hne, hhead]

theorem isNumeral_signed {s : Bytes} (h : isUnsigned s = true) (negative : Bool) :
    isNumeral (Decimal.signed negative s) = true := by
  cases negative with
  | true => exact h
  | false =>
      have hsigned : Decimal.signed false s = s := rfl
      rw [hsigned]
      unfold isNumeral
      split
      · exact absurd h (by simp [isUnsigned, isWhole, Bytes.isDigit])
      · exact h

/-! ## Integers and doubles -/

private theorem isUnsigned_ofNat (n : Nat) : isUnsigned (Bytes.ofNat n) = true := by
  refine isUnsigned_whole (fun b => Bytes.isDigit_of_mem_ofNat) ?_
  by_cases hn : n = 0
  · subst hn
    decide
  · exact isWhole_of_head? (Bytes.ofNat_ne_nil n) (Bytes.head?_ofNat hn)

theorem isNumeral_ofInt (i : Int) : isNumeral (Bytes.ofInt i) = true := by
  have hsigned : Bytes.ofInt i = Decimal.signed (decide (i < 0)) (Bytes.ofNat i.natAbs) := by
    rw [Bytes.ofInt, Decimal.signed]
    by_cases hi : i < 0 <;> simp [hi]
  rw [hsigned]
  exact isNumeral_signed (isUnsigned_ofNat _) _

private theorem isUnsigned_positional {d : Decimal.Digits} (hd : d.Normal) :
    isUnsigned (Decimal.positional d) = true := by
  simp only [Decimal.positional]
  -- All digits stand behind the point, or all in front of it, or it stands among them.
  split
  · have hfraction : isFraction (0x2E :: (Decimal.zeros (-d.point).toNat ++ d.digits ++ [])) =
        true := by
      refine isFraction_point (by simp [hd.ne_nil]) (fun b hb => ?_) rfl
      exact (List.mem_append.mp hb).elim Decimal.isDigit_of_mem_zeros (hd.isDigit b)
    rw [List.append_nil] at hfraction
    have hzero : ∀ b ∈ ([0x30] : Bytes), Bytes.isDigit b = true :=
      Bytes.forall_of_all (by decide)
    have hsplit : utf8 "0." ++ Decimal.zeros (-d.point).toNat ++ d.digits =
        [0x30] ++ 0x2E :: (Decimal.zeros (-d.point).toNat ++ d.digits) := rfl
    rw [hsplit]
    exact isUnsigned_append hzero rfl hfraction
  · rename_i hpoint
    split
    · rename_i hlength
      refine isUnsigned_whole (fun b hb => ?_) ?_
      · exact (List.mem_append.mp hb).elim (hd.isDigit b) Decimal.isDigit_of_mem_zeros
      · rcases hd.leading with rfl | hhead
        · rfl
        · refine isWhole_of_head? (by simp [hd.ne_nil]) ?_
          rw [List.head?_append_of_ne_nil _ hd.ne_nil]
          exact hhead
    · rename_i hlength
      have hwhole : isWhole (d.digits.take d.point.toNat) = true := by
        rcases hd.leading with rfl | hhead
        · exact absurd (by decide) hlength
        · refine isWhole_of_head? ?_ ?_
          · simp [hd.ne_nil]
            omega
          · rw [List.head?_take, if_neg (by omega)]
            exact hhead
      have hfraction : isFraction (0x2E :: (d.digits.drop d.point.toNat ++ [])) = true := by
        refine isFraction_point (by simpa using hlength) (fun b hb => ?_) rfl
        exact hd.isDigit b (List.mem_of_mem_drop hb)
      rw [List.append_nil] at hfraction
      exact isUnsigned_append (fun b hb => hd.isDigit b (List.mem_of_mem_take hb)) hwhole hfraction

private theorem isUnsigned_scientific {d : Decimal.Digits} (hd : d.Normal) (width : Nat) :
    isUnsigned (Decimal.scientific width d) = true := by
  have hexponent : isExponent ((if d.point - 1 < 0 then utf8 "e-" else utf8 "e+") ++
      Bytes.padZeros width (Bytes.ofNat (d.point - 1).natAbs)) = true := by
    have hdigits : ∀ b ∈ Bytes.padZeros width (Bytes.ofNat (d.point - 1).natAbs),
        Bytes.isDigit b = true := fun b => Bytes.isDigit_of_mem_padZeros
    have hsign := isExponent_digits (by simp [Bytes.padZeros, Bytes.ofNat_ne_nil]) hdigits
      (decide (d.point - 1 < 0))
    simpa using hsign
  have hwhole : isWhole (d.digits.take 1) = true := by
    obtain ⟨first, more, hfirst⟩ := List.exists_cons_of_ne_nil hd.ne_nil
    simp [hfirst, isWhole]
  have hdigits : ∀ b ∈ d.digits.take 1, Bytes.isDigit b = true :=
    fun b hb => hd.isDigit b (List.mem_of_mem_take hb)
  simp only [Decimal.scientific, List.append_assoc]
  refine isUnsigned_append hdigits hwhole ?_
  cases hmore : d.digits.drop 1 with
  | nil => exact isFraction_of_isExponent hexponent
  | cons b more =>
      refine isFraction_point (List.cons_ne_nil b more) (fun b hb => ?_) hexponent
      rw [← hmore] at hb
      exact hd.isDigit b (List.mem_of_mem_drop hb)

theorem isNumeral_of_number? {x : Float} {out : Bytes} (h : number? x = some out) :
    isNumeral out = true ∧ out = Decimal.json.write x := by
  rw [number?] at h
  cases hshape : Decimal.shape x with
  | nan => simp [hshape] at h
  | infinite negative => simp [hshape] at h
  | finite negative mantissa exponent =>
      have hnormal := Decimal.normal_shortest hshape
      obtain rfl : Decimal.json.write x = out := by simpa [hshape] using h
      refine ⟨?_, rfl⟩
      simp only [Decimal.Layout.write, hshape]
      refine isNumeral_signed ?_ negative
      simp only [Decimal.Layout.digits]
      split
      · exact isUnsigned_scientific hnormal _
      · exact isUnsigned_positional hnormal

end Scriptlet.Json
