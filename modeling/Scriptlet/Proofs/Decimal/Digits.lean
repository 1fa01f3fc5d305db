import Mathlib.Tactic.Ring
import Scriptlet.Decimal.Layout
import Scriptlet.Decimal.Reader
import Scriptlet.Proofs.Text.Pieces

/-!
# Digits of numbers

A natural number is written with digits only and read back from them
(`digitsValue_ofNat`); zeros in front do not count (`digitsValue_padZeros`).  A
number without exponent is written as one line that is not empty.
-/

namespace Scriptlet

/-! ## Natural numbers -/

namespace Bytes

theorem toNat_toUInt8 {c : Char} (hc : c.isDigit = true) :
    c.toUInt8.toNat = c.toNat ∧ 0x30 ≤ c.toNat ∧ c.toNat ≤ 0x39 := by
  simp only [Char.isDigit, Bool.and_eq_true, decide_eq_true_eq, ge_iff_le,
    UInt32.le_iff_toNat_le] at hc
  have hlow : 0x30 ≤ c.toNat := hc.1
  have hhigh : c.toNat ≤ 0x39 := hc.2
  refine ⟨?_, hlow, hhigh⟩
  change c.toNat % 256 = c.toNat
  omega

theorem isDigit_iff (b : UInt8) : isDigit b = true ↔ 0x30 ≤ b.toNat ∧ b.toNat ≤ 0x39 := by
  simp [isDigit, UInt8.le_iff_toNat_le]

theorem isDigit_of_mem_ofNat {n : Nat} {b : UInt8} (h : b ∈ ofNat n) : isDigit b = true := by
  obtain ⟨c, hc, rfl⟩ := List.mem_map.mp h
  obtain ⟨hcode, hlow, hhigh⟩ := toNat_toUInt8
    (Nat.isDigit_of_mem_toDigits (by decide) (by decide) hc)
  rw [isDigit_iff]
  omega

theorem ofNat_ne_nil (n : Nat) : ofNat n ≠ [] := by
  simp [ofNat, Nat.toDigits_ne_nil]

theorem isDigit_of_mem_padZeros {width n : Nat} {b : UInt8} (h : b ∈ padZeros width (ofNat n)) :
    isDigit b = true := by
  rcases List.mem_append.mp h with hzero | hdigit
  · rw [List.eq_of_mem_replicate hzero]
    decide
  · exact isDigit_of_mem_ofNat hdigit

theorem digitsValue_ofNat (n : Nat) : digitsValue (ofNat n) = n := by
  have hfold (cs : List Char) (start : Nat) (hcs : ∀ c ∈ cs, c.isDigit = true) :
      (cs.map Char.toUInt8).foldl (fun n b => 10 * n + digitValue b) start =
        Nat.ofDigitChars 10 cs start := by
    induction cs generalizing start with
    | nil => rfl
    | cons c cs ih =>
        have hvalue : digitValue c.toUInt8 = c.toNat - 0x30 := by
          rw [digitValue, (toNat_toUInt8 (hcs c List.mem_cons_self)).1]
        rw [List.map_cons, List.foldl_cons, hvalue,
          ih _ fun c hc => hcs c (List.mem_cons_of_mem _ hc), Nat.ofDigitChars_cons]
        rfl
  rw [digitsValue, ofNat, hfold _ _ fun c hc =>
    Nat.isDigit_of_mem_toDigits (by decide) (by decide) hc]
  exact Nat.ofDigitChars_ten_toDigits

/-! ## Values of digits -/

theorem digitsValue_append (s t : Bytes) :
    digitsValue (s ++ t) = digitsValue s * 10 ^ t.length + digitsValue t := by
  induction t using List.reverseRecOn with
  | nil => simp [digitsValue]
  | append_singleton t b ih =>
      have hlast (s : Bytes) : digitsValue (s ++ [b]) = 10 * digitsValue s + digitValue b := by
        simp [digitsValue]
      rw [← List.append_assoc, hlast, hlast, ih, List.length_append, List.length_singleton,
        Nat.pow_succ]
      ring

theorem digitsValue_zeros (n : Nat) : digitsValue (List.replicate n 0x30) = 0 := by
  induction n with
  | zero => rfl
  | succ n ih =>
      have hzero : digitsValue [0x30] = 0 := rfl
      rw [List.replicate_succ, ← List.singleton_append, digitsValue_append, ih, hzero,
        Nat.zero_mul]

theorem digitsValue_padZeros (width : Nat) (s : Bytes) :
    digitsValue (padZeros width s) = digitsValue s := by
  rw [padZeros, digitsValue_append, digitsValue_zeros, Nat.zero_mul, Nat.zero_add]

theorem digitValue_le {b : UInt8} (h : isDigit b = true) : digitValue b ≤ 9 := by
  rw [isDigit_iff] at h
  rw [digitValue]
  omega

theorem digitsValue_lt {s : Bytes} (h : ∀ b ∈ s, isDigit b = true) :
    digitsValue s < 10 ^ s.length := by
  induction s using List.reverseRecOn with
  | nil => decide
  | append_singleton s b ih =>
      have hs := ih fun b hb => h b (List.mem_append_left _ hb)
      have hb : digitsValue [b] ≤ 9 := by
        simpa [digitsValue] using digitValue_le (h b (by simp))
      rw [digitsValue_append, List.length_append, Nat.pow_add]
      simp only [List.length_singleton, Nat.pow_one]
      omega

theorem length_ofNat_le {n width : Nat} (hwidth : 0 < width) (h : n < 10 ^ width) :
    (ofNat n).length ≤ width := by
  rw [ofNat, List.length_map]
  exact (Nat.length_toDigits_le_iff (by decide) hwidth).mpr h

end Bytes

/-! ## Numbers without exponent -/

namespace Decimal

theorem isDigit_of_mem_zeros {n : Nat} {b : UInt8} (hb : b ∈ zeros n) : Bytes.isDigit b = true := by
  rw [List.eq_of_mem_replicate hb]
  decide

theorem newline_not_mem_zeros (n : Nat) : newline ∉ zeros n := by
  intro h
  exact absurd (List.eq_of_mem_replicate h) (by decide)

theorem isDigit_of_mem_shortest {mantissa : Nat} {exponent : Int} {b : UInt8}
    (h : b ∈ (shortest mantissa exponent).digits) : Bytes.isDigit b = true := by
  rw [shortest] at h
  split at h
  · obtain rfl := List.mem_singleton.mp h
    decide
  · exact Bytes.isDigit_of_mem_ofNat h

theorem shortest_ne_nil (mantissa : Nat) (exponent : Int) :
    (shortest mantissa exponent).digits ≠ [] := by
  rw [shortest]
  split
  · exact List.cons_ne_nil _ _
  · exact Bytes.ofNat_ne_nil _

private theorem positional_of_digits {d : Digits} (hne : d.digits ≠ [])
    (hdigits : ∀ b ∈ d.digits, Bytes.isDigit b = true) :
    positional d ≠ [] ∧ newline ∉ positional d := by
  have hline := Bytes.newline_not_mem rfl hdigits
  have hzero : newline ∉ utf8 "0." := by decide
  have htake (n : Nat) : newline ∉ d.digits.take n := fun h => hline (List.mem_of_mem_take h)
  have hdrop (n : Nat) : newline ∉ d.digits.drop n := fun h => hline (List.mem_of_mem_drop h)
  have hpoint : newline ≠ 0x2E := by decide
  simp only [positional]
  split
  · simp [hne, hzero, hline, newline_not_mem_zeros]
  · split
    · simp [hne, hline, newline_not_mem_zeros]
    · simp [htake, hdrop, hpoint]

theorem write_plain (x : Float) : plain.write x ≠ [] ∧ newline ∉ plain.write x := by
  rw [Layout.write]
  cases shape x with
  | nan => decide
  | infinite negative => cases negative <;> decide
  | finite negative mantissa exponent =>
      obtain ⟨hne, hline⟩ := positional_of_digits (shortest_ne_nil mantissa exponent)
        fun b => isDigit_of_mem_shortest
      have hdigits : plain.digits (shortest mantissa exponent) =
          positional (shortest mantissa exponent) := rfl
      have hminus : newline ≠ 0x2D := by decide
      simp only [hdigits, signed]
      split <;> simp [hne, hline, hminus]

/-! ## What numbers are made of -/

private theorem mem_positional {d : Digits} (hdigits : ∀ b ∈ d.digits, Bytes.isDigit b = true)
    {b : UInt8} (h : b ∈ positional d) : Bytes.isDigit b = true ∨ b = point := by
  have hzero : ∀ b ∈ utf8 "0.", Bytes.isDigit b = true ∨ b = point :=
    Bytes.forall_of_all (by decide)
  simp only [positional] at h
  split at h
  · simp only [List.mem_append] at h
    rcases h with (hb | hb) | hb
    · exact hzero b hb
    · exact .inl (isDigit_of_mem_zeros hb)
    · exact .inl (hdigits b hb)
  · split at h
    · rcases List.mem_append.mp h with hb | hb
      · exact .inl (hdigits b hb)
      · exact .inl (isDigit_of_mem_zeros hb)
    · rcases List.mem_append.mp h with hb | hb
      · exact .inl (hdigits b (List.mem_of_mem_take hb))
      · rcases List.mem_cons.mp hb with rfl | hb
        · exact .inr rfl
        · exact .inl (hdigits b (List.mem_of_mem_drop hb))

private theorem mem_write_plain {x : Float} {b : UInt8} (h : b ∈ plain.write x) :
    Bytes.isDigit b = true ∨ b ∈ utf8 "+-.NaInf" := by
  rw [Layout.write] at h
  cases hshape : shape x with
  | nan =>
      have hall : ∀ b ∈ utf8 "NaN", b ∈ utf8 "+-.NaInf" := Bytes.forall_of_all (by decide)
      simp only [hshape] at h
      exact .inr (hall b h)
  | infinite negative =>
      have hall : ∀ b ∈ utf8 (if negative then "-Inf" else "+Inf"), b ∈ utf8 "+-.NaInf" := by
        cases negative <;> exact Bytes.forall_of_all (by decide)
      simp only [hshape] at h
      exact .inr (hall b (by cases negative <;> exact h))
  | finite negative mantissa exponent =>
      have hminus : 0x2D ∈ utf8 "+-.NaInf" := by decide
      have hpoint : point ∈ utf8 "+-.NaInf" := by decide
      have hbody : ∀ b ∈ positional (shortest mantissa exponent),
          Bytes.isDigit b = true ∨ b ∈ utf8 "+-.NaInf" := by
        intro b hb
        rcases mem_positional (fun b => isDigit_of_mem_shortest) hb with hdigit | rfl
        · exact .inl hdigit
        · exact .inr hpoint
      simp only [hshape, signed] at h
      split at h
      · rcases List.mem_cons.mp h with rfl | hb
        · exact .inr hminus
        · exact hbody b hb
      · exact hbody b h

theorem not_mem_write_plain {x : Float} {b : UInt8} (hdigit : Bytes.isDigit b = false)
    (hb : b ∉ utf8 "+-.NaInf") : b ∉ plain.write x := by
  intro h
  rcases mem_write_plain h with hdigit' | hmem
  · rw [hdigit] at hdigit'
    cases hdigit'
  · exact hb hmem

end Decimal

end Scriptlet
