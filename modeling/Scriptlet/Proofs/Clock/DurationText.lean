import Mathlib.Data.List.DropRight
import Scriptlet.Clock.Duration
import Scriptlet.Proofs.Decimal.Digits

/-!
# Durations read back

The text of a duration is a sum of terms, each a number with its unit
(`sums_magnitudeText`).  A term is read exactly: its fraction has at most as many
digits as its unit has zeros, so no digit is dropped and nothing is rounded
(`isTerm_fractional`).  A duration therefore reads back if and only if it fits in a word
of 64 bits (`parse_text_iff`).
-/

namespace Scriptlet

namespace Bytes

/-! ## Runs of bytes -/

theorem takeWhile_dropWhile_append {p : UInt8 → Bool} {run : Bytes} (rest : Bytes)
    (hrun : ∀ b ∈ run, p b = true) (hrest : ∀ b, rest.head? = some b → p b = false) :
    (run ++ rest).takeWhile p = run ∧ (run ++ rest).dropWhile p = rest := by
  rw [List.takeWhile_append_of_pos hrun, List.dropWhile_append_of_pos hrun]
  cases rest with
  | nil => simp
  | cons b rest => simp [hrest b rfl]

/-! ## Zeros at the end -/

private theorem exists_zeros (s : Bytes) :
    ∃ k, s = dropEndWhile (· == 0x30) s ++ List.replicate k 0x30 := by
  refine ⟨(s.rtakeWhile (· == 0x30)).length, ?_⟩
  have hzeros : s.rtakeWhile (· == 0x30) =
      List.replicate (s.rtakeWhile (· == 0x30)).length 0x30 :=
    List.eq_replicate_of_mem fun b hb => by simpa using List.mem_rtakeWhile_imp hb
  conv_lhs => rw [← List.rdropWhile_append_rtakeWhile (p := (· == 0x30)) (l := s), hzeros]
  rfl

end Bytes

namespace Duration

open Bytes (isDigit digitsValue)

/-! ## Fractions -/

def fractionStep (state : Nat × Nat × Bool) (b : UInt8) : Nat × Nat × Bool :=
  if state.2.2 || (limit - 1) / 10 < state.1 || limit < 10 * state.1 + Bytes.digitValue b then
    (state.1, state.2.1, true)
  else (10 * state.1 + Bytes.digitValue b, 10 * state.2.1, false)

private theorem foldl_fractionStep {digits : Bytes} (hdigits : ∀ b ∈ digits, isDigit b = true)
    (hlength : digits.length ≤ 18) :
    digits.foldl fractionStep (0, 1, false) =
      (digitsValue digits, 10 ^ digits.length, false) := by
  induction digits using List.reverseRecOn with
  | nil => rfl
  | append_singleton digits b ih =>
      have hfront : ∀ b ∈ digits, isDigit b = true :=
        fun b hb => hdigits b (List.mem_append_left _ hb)
      have hb := Bytes.digitValue_le (hdigits b (by simp))
      rw [List.length_append, List.length_singleton] at hlength
      -- Seventeen digits and one more stay below the limit.
      have hsmall : digitsValue digits < 10 ^ 17 :=
        (Bytes.digitsValue_lt hfront).trans_le (Nat.pow_le_pow_right (by decide) (by omega))
      have hvalue : digitsValue (digits ++ [b]) = 10 * digitsValue digits + Bytes.digitValue b := by
        simp [digitsValue]
      rw [List.foldl_append, ih hfront (by omega), List.foldl_cons, List.foldl_nil, hvalue,
        List.length_append, List.length_singleton, Nat.pow_succ', fractionStep, if_neg]
      have hlimit : limit = 2 ^ 63 := rfl
      simp only [Bool.or_eq_true, decide_eq_true_eq, Bool.false_eq_true, false_or]
      omega

theorem fraction_eq {digits : Bytes} (hdigits : ∀ b ∈ digits, isDigit b = true)
    (hlength : digits.length ≤ 18) :
    fraction digits = (digitsValue digits, 10 ^ digits.length) := by
  have hfold : fraction digits =
      ((digits.foldl fractionStep (0, 1, false)).1,
        (digits.foldl fractionStep (0, 1, false)).2.1) := rfl
  rw [hfold, foldl_fractionStep hdigits hlength]

/-- A power of ten that divides the unit scales the fraction without rounding. -/
private theorem fractionNanoseconds_of_le {k places : Nat} (h : k ≤ places) (value : Nat) :
    fractionNanoseconds (10 ^ places) value (10 ^ k) = value * 10 ^ (places - k) := by
  have hdvd : 10 ^ k ∣ 10 ^ places := Nat.pow_dvd_pow 10 h
  rw [fractionNanoseconds, if_pos (by simpa using Nat.mod_eq_zero_of_dvd hdvd),
    Nat.pow_div h (by decide)]

/-! ## Terms -/

def Continues (rest : Bytes) : Prop := ∀ b, rest.head? = some b → isDigit b = true

def isUnitByte (b : UInt8) : Bool := !(b == 0x2E || isDigit b)

theorem units_distinct : ∀ entry ∈ units, 0 < entry.2 ∧ entry.1 ≠ [] ∧
    (∀ b ∈ entry.1, b ≠ 0x2E ∧ isDigit b = false) ∧
    units.find? (fun other => other.1 == entry.1) = some entry := by
  decide +kernel

private theorem not_limit_lt {value unit : Nat} (hunit : 0 < unit) (hfits : value * unit ≤ limit) :
    ¬limit < value ∧ ¬limit / unit < value :=
  ⟨not_lt.mpr ((Nat.le_mul_of_pos_right _ hunit).trans hfits),
    not_lt.mpr ((Nat.le_div_iff_mul_le hunit).mpr hfits)⟩

def afterWhole : Bytes → Bytes × Bytes
  | 0x2E :: more => (more.takeWhile isDigit, more.dropWhile isDigit)
  | more => ([], more)

section Term

variable {whole digits rest : Bytes} {entry : Bytes × Nat} (hunit : entry ∈ units)
include hunit

theorem head_unit (rest : Bytes) :
    ∃ c behind, entry.1 ++ rest = c :: behind ∧ c ≠ 0x2E ∧ isDigit c = false := by
  obtain ⟨-, hne, hbytes, -⟩ := units_distinct entry hunit
  obtain ⟨c, name, hname⟩ := List.exists_cons_of_ne_nil hne
  obtain ⟨hpoint, hdigit⟩ := hbytes c (hname ▸ List.mem_cons_self)
  exact ⟨c, name ++ rest, by rw [hname, List.cons_append], hpoint, hdigit⟩

private theorem unit_append (hrest : Continues rest) :
    (entry.1 ++ rest).takeWhile isUnitByte = entry.1 ∧
      (entry.1 ++ rest).dropWhile isUnitByte = rest := by
  obtain ⟨-, -, hbytes, -⟩ := units_distinct entry hunit
  refine Bytes.takeWhile_dropWhile_append rest ?_ ?_
  · intro b hb
    simp [isUnitByte, hbytes b hb]
  · intro b hb
    simp [isUnitByte, hrest b hb]

theorem term_of_afterWhole {s : Bytes} (hrest : Continues rest) (hne : whole ≠ [])
    (hwhole : s.takeWhile isDigit = whole)
    (hbehind : afterWhole (s.dropWhile isDigit) = (digits, entry.1 ++ rest))
    (hfits : digitsValue whole * entry.2 +
      fractionNanoseconds entry.2 (fraction digits).1 (fraction digits).2 ≤ limit) :
    term s = .ok (digitsValue whole * entry.2 +
      fractionNanoseconds entry.2 (fraction digits).1 (fraction digits).2, rest) := by
  obtain ⟨hpos, hname, -, hfind⟩ := units_distinct entry hunit
  obtain ⟨hlimit, hquotient⟩ := not_limit_lt hpos ((Nat.le_add_right _ _).trans hfits)
  obtain ⟨htakeUnit, hdropUnit⟩ := unit_append hunit hrest
  unfold isUnitByte at htakeUnit hdropUnit
  unfold afterWhole at hbehind
  split at hbehind
  case' h_1 more hpoint =>
    obtain ⟨hfraction, hend⟩ := Prod.mk.inj hbehind
    simp only [term, hwhole, hpoint, hfraction, hend, htakeUnit, hdropUnit, hfind]
  case' h_2 hnone =>
    obtain ⟨rfl, hend⟩ := Prod.mk.inj hbehind
    rw [hend] at hnone
    simp only [term, hwhole, hend, htakeUnit, hdropUnit, hfind]
  all_goals
    rw [if_neg (by simp [hne, hlimit]), if_neg (by simpa using hname),
      if_neg (by simpa [hquotient] using hfits)]

variable (hne : whole ≠ []) (hwhole : ∀ b ∈ whole, isDigit b = true) (hrest : Continues rest)
include hne hwhole hrest

private theorem term_whole (hfits : digitsValue whole * entry.2 ≤ limit) :
    term (whole ++ (entry.1 ++ rest)) = .ok (digitsValue whole * entry.2, rest) := by
  obtain ⟨c, behind, hbehind, hpoint, hdigit⟩ := head_unit hunit rest
  obtain ⟨htake, hdrop⟩ := Bytes.takeWhile_dropWhile_append (entry.1 ++ rest) hwhole
    (by simpa [hbehind] using hdigit)
  have hzero : fractionNanoseconds entry.2 (fraction []).1 (fraction []).2 = 0 := by
    have hnone : fraction [] = (0, 1) := rfl
    rw [hnone, fractionNanoseconds, if_pos (by simp [Nat.mod_one]), Nat.zero_mul]
  have hafter : afterWhole (entry.1 ++ rest) = ([], entry.1 ++ rest) := by
    rw [hbehind, afterWhole]
    exact fun more h => hpoint (List.cons.inj h).1
  have hterm := term_of_afterWhole hunit hrest hne htake (by rw [hdrop, hafter])
    (by rwa [hzero, Nat.add_zero])
  rwa [hzero, Nat.add_zero] at hterm

private theorem term_point (hdigits : ∀ b ∈ digits, isDigit b = true) (hlength : digits.length ≤ 18)
    (hfits : digitsValue whole * entry.2 +
      fractionNanoseconds entry.2 (digitsValue digits) (10 ^ digits.length) ≤ limit) :
    term (whole ++ 0x2E :: (digits ++ (entry.1 ++ rest))) =
      .ok (digitsValue whole * entry.2 +
        fractionNanoseconds entry.2 (digitsValue digits) (10 ^ digits.length), rest) := by
  obtain ⟨c, behind, hbehind, -, hdigit⟩ := head_unit hunit rest
  obtain ⟨htakeFraction, hdropFraction⟩ := Bytes.takeWhile_dropWhile_append (entry.1 ++ rest)
    hdigits (by simpa [hbehind] using hdigit)
  obtain ⟨htake, hdrop⟩ := Bytes.takeWhile_dropWhile_append
    (0x2E :: (digits ++ (entry.1 ++ rest))) hwhole (by simp; decide)
  have hafter : afterWhole (0x2E :: (digits ++ (entry.1 ++ rest))) =
      (digits, entry.1 ++ rest) := congrArg₂ Prod.mk htakeFraction hdropFraction
  have hterm := term_of_afterWhole hunit hrest hne htake (by rw [hdrop, hafter])
    (by rwa [fraction_eq hdigits hlength])
  rwa [fraction_eq hdigits hlength] at hterm

end Term

/-! ## Numbers with a unit -/

/-- A number with its unit: read back whatever term follows. -/
structure IsTerm (s : Bytes) (n : Nat) : Prop where
  continues : Continues s
  reads : ∀ rest, Continues rest → term (s ++ rest) = .ok (n, rest)

theorem IsTerm.ne_nil {s : Bytes} {n : Nat} (h : IsTerm s n) : s ≠ [] := by
  rintro rfl
  have hread := h.reads [] (by simp [Continues])
  cases hread

theorem continues_ofNat_append (n : Nat) (s : Bytes) : Continues (Bytes.ofNat n ++ s) := by
  intro b hb
  rw [List.head?_append_of_ne_nil _ (Bytes.ofNat_ne_nil n)] at hb
  exact Bytes.isDigit_of_mem_ofNat (List.mem_of_head? hb)

theorem isTerm_ofNat {n unit : Nat} {name : Bytes} (hunit : (name, unit) ∈ units)
    (hfits : n * unit ≤ limit) : IsTerm (Bytes.ofNat n ++ name) (n * unit) := by
  refine ⟨continues_ofNat_append n name, fun rest hrest => ?_⟩
  have hvalue := Bytes.digitsValue_ofNat n
  rw [List.append_assoc, term_whole hunit (Bytes.ofNat_ne_nil n)
    (fun b => Bytes.isDigit_of_mem_ofNat) hrest (by rwa [hvalue]), hvalue]

def fractionDigits (n places : Nat) : Bytes :=
  Bytes.dropEndWhile (· == 0x30) (Bytes.padZeros places (Bytes.ofNat (n % 10 ^ places)))

private theorem fractionDigits_value {n places : Nat} (hplaces : 0 < places) :
    (∀ b ∈ fractionDigits n places, isDigit b = true) ∧
      (fractionDigits n places).length ≤ places ∧
      digitsValue (fractionDigits n places) * 10 ^ (places - (fractionDigits n places).length) =
        n % 10 ^ places := by
  obtain ⟨k, hpadded⟩ := Bytes.exists_zeros
    (Bytes.padZeros places (Bytes.ofNat (n % 10 ^ places)))
  rw [← fractionDigits] at hpadded
  have hlength : (fractionDigits n places).length + k = places := by
    have hwidth : (Bytes.ofNat (n % 10 ^ places)).length ≤ places :=
      Bytes.length_ofNat_le hplaces (Nat.mod_lt _ (Nat.pow_pos (by decide)))
    have h := congrArg List.length hpadded
    simp only [Bytes.padZeros, List.length_append, List.length_replicate] at h
    omega
  refine ⟨?_, by omega, ?_⟩
  · intro b hb
    have hmem : b ∈ Bytes.padZeros places (Bytes.ofNat (n % 10 ^ places)) := by
      rw [hpadded]
      exact List.mem_append_left _ hb
    exact Bytes.isDigit_of_mem_padZeros hmem
  · have h := congrArg digitsValue hpadded
    rw [Bytes.digitsValue_padZeros, Bytes.digitsValue_ofNat, Bytes.digitsValue_append,
      Bytes.digitsValue_zeros, List.length_replicate, Nat.add_zero] at h
    rw [show places - (fractionDigits n places).length = k by omega, h]

theorem isTerm_fractional {n places : Nat} {name : Bytes} (hunit : (name, 10 ^ places) ∈ units)
    (hpositive : 0 < places) (hplaces : places ≤ 18) (hfits : n ≤ limit) :
    IsTerm (fractional n places ++ name) n := by
  have hparts : n / 10 ^ places * 10 ^ places + n % 10 ^ places = n := Nat.div_add_mod' n _
  have htext : fractional n places =
      if n % 10 ^ places == 0 then Bytes.ofNat (n / 10 ^ places)
      else Bytes.ofNat (n / 10 ^ places) ++ 0x2E :: fractionDigits n places := rfl
  rw [htext]
  by_cases hzero : n % 10 ^ places = 0
  · rw [if_pos (by simpa using hzero)]
    have hterm := isTerm_ofNat (n := n / 10 ^ places) hunit (by omega)
    rwa [show n / 10 ^ places * 10 ^ places = n by omega] at hterm
  · obtain ⟨hdigits, hlength, hvalue⟩ := fractionDigits_value (n := n) hpositive
    rw [if_neg (by simpa using hzero), List.append_assoc]
    refine ⟨continues_ofNat_append _ _, fun rest hrest => ?_⟩
    have htotal : digitsValue (Bytes.ofNat (n / 10 ^ places)) * 10 ^ places +
        fractionNanoseconds (10 ^ places) (digitsValue (fractionDigits n places))
          (10 ^ (fractionDigits n places).length) = n := by
      rw [Bytes.digitsValue_ofNat, fractionNanoseconds_of_le hlength, hvalue, hparts]
    have hterm := term_point hunit (Bytes.ofNat_ne_nil _) (fun b => Bytes.isDigit_of_mem_ofNat)
      hrest hdigits (hlength.trans hplaces) (by rwa [htotal])
    rw [htotal] at hterm
    simpa using hterm

/-! ## Sums of terms -/

/-- A text that is one term after the other, with the sum of what they are worth. -/
inductive Sums : Bytes → Nat → Prop
  | last {s : Bytes} {n : Nat} : IsTerm s n → Sums s n
  | next {s t : Bytes} {n m : Nat} : IsTerm s n → Sums t m → Sums (s ++ t) (n + m)

namespace Sums

variable {s : Bytes} {n : Nat}

theorem continues (h : Sums s n) : Continues s := by
  cases h with
  | last hterm => exact hterm.continues
  | next hterm hsums =>
      intro b hb
      rw [List.head?_append_of_ne_nil _ hterm.ne_nil] at hb
      exact hterm.continues b hb

theorem ne_nil (h : Sums s n) : s ≠ [] := by
  cases h with
  | last hterm => exact hterm.ne_nil
  | next hterm hsums => exact List.append_ne_nil_of_left_ne_nil hterm.ne_nil _

private theorem exists_term (h : Sums s n) : ∃ m rest, term s = .ok (m, rest) := by
  cases h with
  | @last _ n hterm =>
      have hread := hterm.reads [] (by simp [Continues])
      rw [List.append_nil] at hread
      exact ⟨n, [], hread⟩
  | @next _ t n m hterm hsums => exact ⟨n, t, hterm.reads t hsums.continues⟩

theorem terms_eq (h : Sums s n) {fuel sum : Nat} (hfuel : s.length ≤ fuel)
    (hfits : sum + n ≤ limit) : terms fuel sum s = .ok (sum + n) := by
  have hword {m : Nat} (hm : m ≤ limit) : m % 0x10000000000000000 = m :=
    Nat.mod_eq_of_lt (hm.trans_lt (by decide))
  induction h generalizing fuel sum with
  | @last s n hterm =>
      have hread := hterm.reads [] (by simp [Continues])
      have hlength := List.length_pos_iff.mpr hterm.ne_nil
      obtain ⟨fuel, rfl⟩ : ∃ k, fuel = k + 1 := ⟨fuel - 1, by omega⟩
      rw [List.append_nil] at hread
      simp [terms, hread, hword hfits, not_lt.mpr hfits]
  | @next s t n m hterm hsums ih =>
      have hread := hterm.reads t hsums.continues
      have hlength := List.length_pos_iff.mpr hterm.ne_nil
      rw [List.length_append] at hfuel
      obtain ⟨fuel, rfl⟩ : ∃ k, fuel = k + 1 := ⟨fuel - 1, by omega⟩
      have hsmall : sum + n ≤ limit := by omega
      have hrest := @ih fuel (sum + n) (by omega) (by omega)
      simp [terms, hread, hword hsmall, not_lt.mpr hsmall, hsums.ne_nil, hrest, Nat.add_assoc]

theorem magnitude?_eq (h : Sums s n) (hfits : n ≤ limit) : magnitude? s = .ok n := by
  have hzero : ¬(s == utf8 "0") = true := by
    intro hs
    obtain ⟨m, rest, hterm⟩ := h.exists_term
    rw [eq_of_beq hs, show term (utf8 "0") = .error .missingUnit from rfl] at hterm
    cases hterm
  rw [magnitude?, if_neg hzero, h.terms_eq (Nat.le_refl _) (by omega), Nat.zero_add]

end Sums

theorem sums_magnitudeText {n : Nat} (hfits : n ≤ limit) : Sums (magnitudeText n) n := by
  have hsplit : n / (60 * second) * (60 * second) + n % (60 * second) = n := Nat.div_add_mod' n _
  have hseconds : IsTerm (fractional (n % (60 * second)) 9 ++ utf8 "s") (n % (60 * second)) :=
    isTerm_fractional (by decide) (by decide) (by decide) ((Nat.mod_le _ _).trans hfits)
  have hminute (k : Nat) (hk : k * (60 * second) ≤ limit) :
      IsTerm (Bytes.ofNat k ++ utf8 "m") (k * (60 * second)) := isTerm_ofNat (by decide) hk
  unfold magnitudeText
  split_ifs with hzero hnano hmicro hmilli
  · obtain rfl : n = 0 := by simpa using hzero
    have hterm : IsTerm (Bytes.ofNat 0 ++ utf8 "s") (0 * second) :=
      isTerm_ofNat (by decide) (by decide)
    exact .last hterm
  · have hterm : IsTerm (Bytes.ofNat n ++ utf8 "ns") (n * 1) :=
      isTerm_ofNat (by decide) (by omega)
    exact .last (by simpa using hterm)
  · exact .last (isTerm_fractional (by decide) (by decide) (by decide) hfits)
  · exact .last (isTerm_fractional (by decide) (by decide) (by decide) hfits)
  · dsimp only
    generalize n / (60 * second) = minutes at hsplit
    generalize n % (60 * second) = rest at hsplit hseconds
    subst hsplit
    split_ifs with hnone hfew
    · obtain rfl : minutes = 0 := by simpa using hnone
      rw [Nat.zero_mul, Nat.zero_add]
      exact .last hseconds
    · exact .next (hminute minutes (by omega)) (.last hseconds)
    · have hunit : minutes * (60 * second) =
          minutes / 60 * (3600 * second) + minutes % 60 * (60 * second) := by
        simp only [second]
        omega
      have hhour : IsTerm (Bytes.ofNat (minutes / 60) ++ utf8 "h")
          (minutes / 60 * (3600 * second)) := isTerm_ofNat (by decide) (by omega)
      have hsums := Sums.next hhour (.next (hminute (minutes % 60) (by omega)) (.last hseconds))
      rw [hunit, Nat.add_assoc]
      simpa using hsums

/-! ## Reading back -/

private theorem le_of_terms {fuel sum n : Nat} {s : Bytes} (h : terms fuel sum s = .ok n) :
    n ≤ limit := by
  induction fuel generalizing sum s with
  | zero => cases h
  | succ fuel ih =>
      rw [terms] at h
      cases hterm : term s with
      | error problem =>
          simp only [hterm] at h
          cases h
      | ok read =>
          simp only [hterm] at h
          split_ifs at h with hlarge hend
          · cases h
            exact not_lt.mp hlarge
          · exact ih h

private theorem le_of_magnitude? {s : Bytes} {n : Nat} (h : magnitude? s = .ok n) : n ≤ limit := by
  rw [magnitude?] at h
  split at h
  · cases h
    exact Nat.zero_le _
  · exact le_of_terms h

theorem bounds_of_parse {s : Bytes} {d : Duration} (h : parse s = .ok d) :
    -2 ^ 63 ≤ d.nanoseconds ∧ d.nanoseconds < 2 ^ 63 := by
  have hlimit : limit = 2 ^ 63 := rfl
  unfold parse at h
  split at h
  all_goals
    dsimp only at h
    split at h
    · cases h
    · rename_i hread
      have hle := le_of_magnitude? hread
      split_ifs at h
      all_goals
        obtain rfl := Except.ok.inj h
        dsimp only
        omega

private theorem parse_of_nonneg {d : Duration} (hsign : 0 ≤ d.nanoseconds)
    (hbound : d.nanoseconds < 2 ^ 63) : parse d.text = .ok d := by
  have hlimit : limit = 2 ^ 63 := rfl
  have hsums := sums_magnitudeText (n := d.nanoseconds.natAbs) (by omega)
  have htext : d.text = magnitudeText d.nanoseconds.natAbs := by
    rw [text, if_neg (by omega)]
  have hread := hsums.magnitude?_eq (by omega)
  have hfits : ¬limit ≤ d.nanoseconds.natAbs := by omega
  have hvalue : (d.nanoseconds.natAbs : Int) = d.nanoseconds := by omega
  -- The first byte is a digit, so there is no sign to take off.
  have hdigit := hsums.continues
  rw [← htext] at hread hdigit
  rw [parse]
  · simp [hread, hfits, hvalue]
  · intro rest heq
    have hplus := hdigit 0x2B (by rw [heq]; rfl)
    cases hplus
  · intro rest heq
    have hminus := hdigit 0x2D (by rw [heq]; rfl)
    cases hminus

private theorem parse_of_neg {d : Duration} (hsign : d.nanoseconds < 0)
    (hbound : -2 ^ 63 ≤ d.nanoseconds) : parse d.text = .ok d := by
  have hlimit : limit = 2 ^ 63 := rfl
  have hread := (sums_magnitudeText (n := d.nanoseconds.natAbs) (by omega)).magnitude?_eq
    (by omega)
  have htext : d.text = 0x2D :: magnitudeText d.nanoseconds.natAbs := by
    rw [text, if_pos hsign]
  have hvalue : -(d.nanoseconds.natAbs : Int) = d.nanoseconds := by omega
  simp only [parse, htext, hread, if_true, hvalue]

/--
A duration is read back from its text if and only if it is a number of nanoseconds
that a word of 64 bits holds.
-/
theorem parse_text_iff (d : Duration) :
    parse d.text = .ok d ↔ -2 ^ 63 ≤ d.nanoseconds ∧ d.nanoseconds < 2 ^ 63 := by
  constructor
  · exact bounds_of_parse
  · rintro ⟨hlow, hhigh⟩
    rcases lt_or_ge d.nanoseconds 0 with hsign | hsign
    · exact parse_of_neg hsign hlow
    · exact parse_of_nonneg hsign hhigh

example : text ⟨-2 ^ 63⟩ = utf8 "-2562047h47m16.854775808s" := by decide +kernel

end Duration

end Scriptlet
