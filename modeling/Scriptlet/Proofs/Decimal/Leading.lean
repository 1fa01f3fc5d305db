import Mathlib.Tactic.Ring
import Scriptlet.Proofs.Decimal.Digits

/-!
# The leading digit of a number

The digits of a number other than zero do not begin with a zero
(`head?_ofNat`, `normal_shortest`).  For a double this rests on the estimate
of its magnitude: it is never so large that the grid with seventeen digits rounds
the double to zero.
-/

namespace Scriptlet

theorem Bytes.head?_ofNat {n : Nat} (hn : n ≠ 0) : (ofNat n).head? ≠ some 0x30 := by
  induction n using Nat.strongRecOn with
  | ind n ih =>
      by_cases hsmall : n < 10
      · have hone : ∀ n < 10, n ≠ 0 → (ofNat n).head? ≠ some 0x30 := by decide
        exact hone n hsmall hn
      · have hdigits : ofNat n = ofNat (n / 10) ++ [(n % 10).digitChar.toUInt8] := by
          rw [ofNat, ofNat, Nat.toDigits_of_base_le (by decide) (by omega), List.map_append]
          rfl
        rw [hdigits, List.head?_append_of_ne_nil _ (ofNat_ne_nil _)]
        exact ih (n / 10) (by omega) (by omega)

namespace Decimal

/-! ## Powers of ten against powers of two -/

private theorem pow_ten_le {k n : Nat} (h : k ≤ 3 * (n / 10)) : 10 ^ k ≤ 2 ^ n :=
  calc
    10 ^ k ≤ 10 ^ (3 * (n / 10)) := Nat.pow_le_pow_right (by decide) h
    _ = (10 ^ 3) ^ (n / 10) := Nat.pow_mul 10 3 (n / 10)
    _ ≤ (2 ^ 10) ^ (n / 10) := Nat.pow_le_pow_left (by decide) _
    _ = 2 ^ (10 * (n / 10)) := (Nat.pow_mul 2 10 (n / 10)).symm
    _ ≤ 2 ^ n := Nat.pow_le_pow_right (by decide) (by omega)

private theorem pow_two_le {k n : Nat} (h : 4 * (n / 13 + 1) ≤ k) : 2 ^ n ≤ 10 ^ k :=
  calc
    2 ^ n ≤ 2 ^ (13 * (n / 13 + 1)) := Nat.pow_le_pow_right (by decide) (by omega)
    _ = (2 ^ 13) ^ (n / 13 + 1) := Nat.pow_mul 2 13 (n / 13 + 1)
    _ ≤ (10 ^ 4) ^ (n / 13 + 1) := Nat.pow_le_pow_left (by decide) _
    _ = 10 ^ (4 * (n / 13 + 1)) := (Nat.pow_mul 10 4 (n / 13 + 1)).symm
    _ ≤ 10 ^ k := Nat.pow_le_pow_right (by decide) h

namespace Ratio

variable {r r' : Ratio} {k k' : Int}

/-! ## Below a power of ten -/

theorem belowPower_iff (r : Ratio) (k : Int) :
    r.belowPower k = true ↔
      r.numerator * 10 ^ (-k).toNat < r.denominator * 10 ^ k.toNat := by
  rw [belowPower, decide_eq_true_eq, onGrid]
  split
  · rename_i hk
    rw [show (-k).toNat = 0 by omega, Nat.pow_zero, Nat.mul_one]
    rfl
  · rename_i hk
    rw [show k.toNat = 0 by omega, Nat.pow_zero, Nat.mul_one]
    rfl

private theorem belowPower_mono (hk : k ≤ k') (h : r.belowPower k = true) :
    r.belowPower k' = true := by
  rw [belowPower_iff] at h ⊢
  calc
    r.numerator * 10 ^ (-k').toNat ≤ r.numerator * 10 ^ (-k).toNat :=
      Nat.mul_le_mul_left _ (Nat.pow_le_pow_right (by decide) (by omega))
    _ < r.denominator * 10 ^ k.toNat := h
    _ ≤ r.denominator * 10 ^ k'.toNat :=
      Nat.mul_le_mul_left _ (Nat.pow_le_pow_right (by decide) (by omega))

private theorem belowPower_congr
    (hsame : r.numerator * r'.denominator = r'.numerator * r.denominator)
    (hr : 0 < r.denominator) (hr' : 0 < r'.denominator) :
    r.belowPower k = r'.belowPower k := by
  rw [Bool.eq_iff_iff, belowPower_iff, belowPower_iff]
  generalize 10 ^ (-k).toNat = small, 10 ^ k.toNat = large
  calc
    r.numerator * small < r.denominator * large
      ↔ r'.denominator * (r.numerator * small) < r'.denominator * (r.denominator * large) :=
        (Nat.mul_lt_mul_left hr').symm
    _ ↔ r.denominator * (r'.numerator * small) < r.denominator * (r'.denominator * large) := by
        rw [← Nat.mul_assoc, Nat.mul_comm r'.denominator, hsame, Nat.mul_comm r'.numerator,
          Nat.mul_assoc, Nat.mul_left_comm r'.denominator]
    _ ↔ r'.numerator * small < r'.denominator * large := Nat.mul_lt_mul_left hr

/-! ## The estimate -/

/-- The difference of the binary logarithms, from which the magnitude is estimated. -/
def octaves (r : Ratio) : Int := (r.numerator.log2 : Int) - (r.denominator.log2 : Int) - 1

def estimate (r : Ratio) : Int := r.octaves * 30103 / 100000 - 1

theorem magnitude_eq (r : Ratio) :
    magnitude r =
      (([0, 1, 2, 3].find? fun (i : Nat) => r.belowPower (r.estimate + i)).map
        fun i => r.estimate + (i : Int)).getD (r.estimate + 4) := by
  have hestimate : r.estimate = r.octaves * 30103 / 100000 - 1 := rfl
  rw [hestimate, octaves, magnitude]
  split <;> rename_i hfind <;> rw [hfind] <;> rfl

private theorem magnitude_le (r : Ratio) : magnitude r ≤ r.estimate + 4 := by
  rw [magnitude_eq]
  cases hfind : [0, 1, 2, 3].find? fun (i : Nat) => r.belowPower (r.estimate + i) with
  | none => exact Int.le_refl _
  | some i =>
      have hi := List.mem_of_find?_eq_some hfind
      have hsmall : i ≤ 3 := by
        simp only [List.mem_cons, List.not_mem_nil, or_false] at hi
        omega
      exact Int.add_le_add_left (by omega) _

private theorem magnitude_of_belowPower (h : r.belowPower r.estimate = true) :
    magnitude r = r.estimate := by
  rw [magnitude_eq, List.find?_cons_of_pos (by simpa using h)]
  simp

private theorem not_belowPower_estimate (hr : r.numerator ≠ 0) (hlow : -1100 ≤ r.octaves)
    (hhigh : r.octaves ≤ 1100) : r.belowPower (r.estimate - 17) = false := by
  rw [Bool.eq_false_iff, Ne, belowPower_iff, not_lt]
  have hnumerator : 2 ^ r.numerator.log2 ≤ r.numerator := Nat.log2_self_le hr
  have hdenominator : r.denominator ≤ 2 ^ (r.denominator.log2 + 1) := Nat.lt_log2_self.le
  have hestimate : r.estimate = r.octaves * 30103 / 100000 - 1 := rfl
  have hoctaves : r.octaves = r.numerator.log2 - r.denominator.log2 - 1 := rfl
  have hpowers : 2 ^ (r.denominator.log2 + 1) * 10 ^ (r.estimate - 17).toNat ≤
      2 ^ r.numerator.log2 * 10 ^ (-(r.estimate - 17)).toNat := by
    rcases Int.le_total 0 r.octaves with hsign | hsign
    · obtain ⟨n, hn⟩ := Int.eq_ofNat_of_zero_le hsign
      have hten : 10 ^ (r.estimate - 17).toNat ≤ 2 ^ n := pow_ten_le (by omega)
      rw [show r.numerator.log2 = r.denominator.log2 + 1 + n by omega, Nat.pow_add 2 _ n]
      calc
        _ ≤ 2 ^ (r.denominator.log2 + 1) * 2 ^ n := Nat.mul_le_mul_left _ hten
        _ ≤ _ := Nat.le_mul_of_pos_right _ (Nat.pow_pos (by decide))
    · obtain ⟨n, hn⟩ := Int.eq_ofNat_of_zero_le (Int.neg_nonneg_of_nonpos hsign)
      have htwo : 2 ^ n ≤ 10 ^ (-(r.estimate - 17)).toNat := pow_two_le (by omega)
      rw [show r.denominator.log2 + 1 = r.numerator.log2 + n by omega,
        show (r.estimate - 17).toNat = 0 by omega, Nat.pow_zero, Nat.mul_one, Nat.pow_add]
      exact Nat.mul_le_mul_left _ htwo
  calc
    _ ≤ 2 ^ (r.denominator.log2 + 1) * 10 ^ (r.estimate - 17).toNat :=
      Nat.mul_le_mul_right _ hdenominator
    _ ≤ _ := hpowers
    _ ≤ _ := Nat.mul_le_mul_right _ hnumerator

private theorem not_belowPower_magnitude (hr : r.numerator ≠ 0) (hlow : -1100 ≤ r.octaves)
    (hhigh : r.octaves ≤ 1100) : r.belowPower (magnitude r - 17) = false := by
  rw [Bool.eq_false_iff]
  intro hbelow
  -- Then it is below the estimate too, which is the first that the search tries.
  have hle := magnitude_le r
  have hestimate := magnitude_of_belowPower (belowPower_mono (by omega) hbelow)
  rw [hestimate, not_belowPower_estimate hr hlow hhigh] at hbelow
  cases hbelow

private theorem roundEven_pos (h : r.belowPower k = false) (hr : 0 < r.denominator) :
    0 < (r.onGrid k).roundEven := by
  have hdenominator : 0 < (r.onGrid k).denominator := by
    rw [onGrid]
    split
    · exact Nat.mul_pos hr (Nat.pow_pos (by decide))
    · exact hr
  have hle : (r.onGrid k).denominator ≤ (r.onGrid k).numerator := by
    simpa [belowPower] using h
  have hquotient := Nat.div_pos hle hdenominator
  simp only [roundEven]
  split
  · exact hquotient
  · split
    · exact hquotient
    · exact Nat.succ_pos _

end Ratio

/-! ## Doubles -/

private theorem shape_bounds {x : Float} {negative : Bool} {mantissa : Nat} {exponent : Int}
    (h : shape x = .finite negative mantissa exponent) :
    mantissa < 2 ^ 53 ∧ -1074 ≤ exponent ∧ exponent ≤ 971 := by
  simp only [shape, hiddenBit, leastExponent, beq_iff_eq] at h
  split at h
  · split at h <;> cases h
  · split at h
    · cases h
      omega
    · cases h
      omega

theorem ratio_ne_zero {mantissa : Nat} (h : mantissa ≠ 0) (exponent : Int) :
    (ratio mantissa exponent).numerator ≠ 0 ∧ 0 < (ratio mantissa exponent).denominator := by
  rw [ratio]
  split
  · exact ⟨Nat.mul_ne_zero h (Nat.pow_pos (by decide)).ne', Nat.one_pos⟩
  · exact ⟨h, Nat.pow_pos (by decide)⟩

private theorem octaves_ratio {mantissa : Nat} {exponent : Int} (hmantissa : mantissa ≠ 0)
    (hsize : mantissa < 2 ^ 53) (hlow : -1074 ≤ exponent) (hhigh : exponent ≤ 971) :
    -1100 ≤ (ratio mantissa exponent).octaves ∧ (ratio mantissa exponent).octaves ≤ 1100 := by
  have hlog : mantissa.log2 < 53 := (Nat.log2_lt hmantissa).mpr hsize
  rw [Ratio.octaves, ratio]
  split
  · have hnumerator : (mantissa * Nat.pow 2 exponent.toNat).log2 < 53 + exponent.toNat := by
      refine (Nat.log2_lt (Nat.mul_ne_zero hmantissa (Nat.pow_pos (by decide)).ne')).mpr ?_
      rw [Nat.pow_add]
      exact Nat.mul_lt_mul_of_pos_right hsize (Nat.pow_pos (by decide))
    have hone : Nat.log2 1 = 0 := by decide
    dsimp only
    omega
  · have hdenominator : (Nat.pow 2 (-exponent).toNat).log2 = (-exponent).toNat :=
      Nat.log2_two_pow
    dsimp only
    omega

/-- The value of an interval is the double, over another denominator. -/
theorem interval_value (mantissa : Nat) (exponent : Int) :
    (interval mantissa exponent).value * (ratio mantissa exponent).denominator =
      (ratio mantissa exponent).numerator * (interval mantissa exponent).denominator := by
  simp only [interval, ratio, Nat.pow_eq, Nat.one_mul]
  split <;> split
  · rename_i hunit hexponent
    rw [show exponent.toNat = (exponent - 2).toNat + 2 by omega, Nat.pow_add]
    ring
  · omega
  · rename_i hunit hexponent
    dsimp only
    rw [Nat.mul_one, Nat.mul_one, Nat.mul_assoc mantissa, ← Nat.pow_add,
      show exponent.toNat + (-(exponent - 2)).toNat = 2 by omega]
    ring
  · rename_i hunit hexponent
    rw [show (-(exponent - 2)).toNat = (-exponent).toNat + 2 by omega, Nat.pow_add]
    ring

private theorem low_pos {mantissa : Nat} (h : mantissa ≠ 0) (exponent : Int) :
    0 < (interval mantissa exponent).low := by
  have hunit := (ratio_ne_zero Nat.one_ne_zero (exponent - 2)).1
  have hbelow : 0 < 4 * mantissa - if mantissa == hiddenBit && leastExponent < exponent then 1
      else 2 := by
    split <;> omega
  exact Nat.mul_pos hbelow (Nat.pos_of_ne_zero hunit)

private theorem ne_zero_of_holds {i : Interval} {k : Int} {c : Nat} (hlow : 0 < i.low)
    (h : i.holds k c = true) : c ≠ 0 := by
  rintro rfl
  have hgrid : 0 < ((⟨1, i.denominator⟩ : Ratio).onGrid k).numerator := by
    rw [Ratio.onGrid]
    split
    · exact Nat.one_pos
    · exact Nat.mul_pos Nat.one_pos (Nat.pow_pos (by decide))
  have hpos := Nat.mul_pos hlow hgrid
  simp only [Interval.holds, Nat.zero_mul] at h
  split at h <;> simp only [Bool.and_eq_true, decide_eq_true_eq] at h <;> omega

private theorem holds_of_onGrid? {i : Interval} {k : Int} {c : Nat} (h : i.onGrid? k = some c) :
    i.holds k c = true := by
  have hchoice (near other : Nat) (h : (if i.holds k near then some near
      else if i.holds k other then some other else none) = some c) : i.holds k c = true := by
    split at h
    · cases h
      assumption
    · split at h
      · cases h
        assumption
      · cases h
  exact hchoice _ _ h

private theorem dropZeros_ne_zero (fuel : Nat) {c : Nat} (hc : c ≠ 0) (k : Int) :
    (dropZeros fuel c k).1 ≠ 0 := by
  induction fuel generalizing c k with
  | zero => exact hc
  | succ fuel ih =>
      rw [dropZeros]
      split
      · rename_i hzero
        have htens : c % 10 = 0 := beq_iff_eq.mp hzero
        exact ih (by omega) _
      · exact hc

/-- Digits as they are written: zero is one digit, other numbers do not begin with zero. -/
structure Digits.Normal (d : Digits) : Prop where
  ne_nil : d.digits ≠ []
  isDigit : ∀ b ∈ d.digits, Bytes.isDigit b = true
  leading : d = ⟨[0x30], 1⟩ ∨ d.digits.head? ≠ some 0x30

theorem normal_shortest {x : Float} {negative : Bool} {mantissa : Nat} {exponent : Int}
    (h : shape x = .finite negative mantissa exponent) : (shortest mantissa exponent).Normal := by
  refine ⟨shortest_ne_nil _ _, fun b => isDigit_of_mem_shortest, ?_⟩
  rw [shortest]
  split
  · exact .inl rfl
  · rename_i hzero
    have hmantissa : mantissa ≠ 0 := by simpa using hzero
    refine .inr (Bytes.head?_ofNat (dropZeros_ne_zero 20 ?_ _))
    cases hfound : (List.range 17).findSome? fun n =>
        ((interval mantissa exponent).onGrid?
            (magnitude (ratio mantissa exponent) - (n + 1 : Nat))).map
          fun c => (c, magnitude (ratio mantissa exponent) - ((n + 1 : Nat) : Int)) with
    | some found =>
        obtain ⟨n, -, hn⟩ := List.exists_of_findSome?_eq_some hfound
        obtain ⟨c, hc, rfl⟩ := Option.map_eq_some_iff.mp hn
        exact ne_zero_of_holds (low_pos hmantissa exponent) (holds_of_onGrid? hc)
    | none =>
        obtain ⟨hsize, hlow, hhigh⟩ := shape_bounds h
        obtain ⟨hnumerator, hdenominator⟩ := ratio_ne_zero hmantissa exponent
        obtain ⟨hleast, hmost⟩ := octaves_ratio hmantissa hsize hlow hhigh
        have hunit := (ratio_ne_zero Nat.one_ne_zero (exponent - 2)).2
        have hbelow := Ratio.not_belowPower_magnitude hnumerator hleast hmost
        rw [← Ratio.belowPower_congr (r := ⟨_, _⟩) (interval_value mantissa exponent) hunit
          hdenominator] at hbelow
        exact (Ratio.roundEven_pos hbelow hunit).ne'

end Decimal

end Scriptlet
