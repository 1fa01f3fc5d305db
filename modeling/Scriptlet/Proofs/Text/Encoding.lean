import Scriptlet.Text.Utf8

/-!
# Runes are UTF-8 characters

`Utf8.first` yields a character exactly where the encoding of a Unicode scalar
value begins (`first_encodeChar`, `exists_char_of_first`); a byte is stray
where none does.
-/

namespace Scriptlet.Utf8

/-! ## Byte classes as ranges of numbers -/

theorem isContinuation_iff (b : UInt8) :
    isContinuation b = true ↔ 0x80 ≤ b.toNat ∧ b.toNat ≤ 0xBF := by
  simp [isContinuation, UInt8.le_iff_toNat_le]

theorem secondOk_iff (lead second : UInt8) :
    secondOk lead second = true ↔
      (0x80 ≤ second.toNat ∧ second.toNat ≤ 0xBF) ∧
        (lead.toNat = 0xE0 → 0xA0 ≤ second.toNat) ∧
        (lead.toNat = 0xED → second.toNat ≤ 0x9F) ∧
        (lead.toNat = 0xF0 → 0x90 ≤ second.toNat) ∧
        (lead.toNat = 0xF4 → second.toNat ≤ 0x8F) := by
  unfold secondOk
  simp only [beq_iff_eq, ← UInt8.toNat_inj, UInt8.reduceToNat]
  repeat' split
  all_goals
    simp only [Bool.and_eq_true, decide_eq_true_eq, UInt8.le_iff_toNat_le,
      UInt8.reduceToNat, isContinuation_iff]
    omega

/-! ## Every encoding is read -/

theorem first_one {b : UInt8} (rest : Bytes) (hb : b.toNat < 0x80) :
    first b rest = .char b.toNat [b] := by
  unfold first
  rw [if_pos (by simpa [UInt8.lt_iff_toNat_lt] using hb)]

private theorem first_two {b c : UInt8} (rest : Bytes)
    (hb : 0xC2 ≤ b.toNat ∧ b.toNat ≤ 0xDF) (hc : isContinuation c = true) :
    first b (c :: rest) = .char (b.toNat % 32 * 64 + tail c) [b, c] := by
  unfold first
  rw [if_neg (by simp [UInt8.lt_iff_toNat_lt]; omega),
    if_pos (by simp [UInt8.le_iff_toNat_le]; omega)]
  simp [hc]

private theorem first_three {b c d : UInt8} (rest : Bytes)
    (hb : 0xE0 ≤ b.toNat ∧ b.toNat ≤ 0xEF) (hc : secondOk b c = true)
    (hd : isContinuation d = true) :
    first b (c :: d :: rest) =
      .char (b.toNat % 16 * 4096 + tail c * 64 + tail d) [b, c, d] := by
  unfold first
  rw [if_neg (by simp [UInt8.lt_iff_toNat_lt]; omega),
    if_neg (by simp [UInt8.le_iff_toNat_le]; omega),
    if_pos (by simp [UInt8.le_iff_toNat_le]; omega)]
  simp [hc, hd]

private theorem first_four {b c d e : UInt8} (rest : Bytes)
    (hb : 0xF0 ≤ b.toNat ∧ b.toNat ≤ 0xF4) (hc : secondOk b c = true)
    (hd : isContinuation d = true) (he : isContinuation e = true) :
    first b (c :: d :: e :: rest) =
      .char (b.toNat % 8 * 262144 + tail c * 4096 + tail d * 64 + tail e)
        [b, c, d, e] := by
  unfold first
  rw [if_neg (by simp [UInt8.lt_iff_toNat_lt]; omega),
    if_neg (by simp [UInt8.le_iff_toNat_le]; omega),
    if_neg (by simp [UInt8.le_iff_toNat_le]; omega),
    if_pos (by simp [UInt8.le_iff_toNat_le]; omega)]
  simp [hc, hd, he]

theorem first_encodeChar (c : Char) (rest : Bytes) {b : UInt8} {more : Bytes}
    (h : String.utf8EncodeChar c = b :: more) :
    first b (more ++ rest) = .char c.toNat (b :: more) := by
  have hvalid : c.toNat < 0xD800 ∨ 0xDFFF < c.toNat ∧ c.toNat < 0x110000 := c.valid
  unfold String.utf8EncodeChar at h
  simp only [← Char.toNat.eq_def] at h
  split at h
  · cases h
    rw [first_one _ (by simp; omega)]
    simp
    omega
  · split at h
    · cases h
      rw [List.cons_append,
        first_two _ (by simp; omega) (by simp [isContinuation_iff]; omega)]
      simp [tail]
      omega
    · split at h
      · cases h
        rw [List.cons_append, List.cons_append,
          first_three _ (by simp; omega) (by simp [secondOk_iff]; omega)
            (by simp [isContinuation_iff]; omega)]
        simp [tail]
        omega
      · cases h
        rw [List.cons_append, List.cons_append, List.cons_append,
          first_four _ (by simp; omega) (by simp [secondOk_iff]; omega)
            (by simp [isContinuation_iff]; omega) (by simp [isContinuation_iff]; omega)]
        simp [tail]
        omega

/-! ## Nothing else is read as a character -/

theorem large_or_alone {c : Char} {b : UInt8} (h : b ∈ String.utf8EncodeChar c) :
    0x80 ≤ b.toNat ∨ b.toNat = c.toNat ∧ String.utf8EncodeChar c = [b] := by
  unfold String.utf8EncodeChar at h ⊢
  simp only [← Char.toNat.eq_def] at h ⊢
  by_cases hone : c.toNat ≤ 127
  · rw [if_pos hone, List.mem_singleton] at h
    rw [if_pos hone, h]
    exact .inr ⟨UInt8.toNat_ofNat_of_lt' (by simp [UInt8.size]; omega), rfl⟩
  · rw [if_neg hone] at h
    left
    repeat' split at h
    all_goals
      simp only [List.mem_cons, List.not_mem_nil, or_false, ← UInt8.toNat_inj,
        UInt8.toNat_ofNat'] at h
      omega

private theorem exists_char {n : Nat} (h : n.isValidChar) :
    ∃ c : Char, c.val.toNat = n := by
  have hsize : n < UInt32.size := by
    simp only [Nat.isValidChar, UInt32.size] at h ⊢
    omega
  have hvalid : (UInt32.ofNatLT n hsize).isValidChar := by
    rw [UInt32.isValidChar, UInt32.toNat_ofNatLT]
    exact h
  exact ⟨⟨UInt32.ofNatLT n hsize, hvalid⟩, UInt32.toNat_ofNatLT⟩

private theorem exists_encode_one {b : UInt8} (hb : b.toNat < 0x80) :
    ∃ c : Char, [b] = String.utf8EncodeChar c := by
  obtain ⟨c, hc⟩ := exists_char (.inl (by omega : b.toNat < 0xD800))
  refine ⟨c, ?_⟩
  simp only [String.utf8EncodeChar, hc]
  rw [if_pos (by omega)]
  simp

private theorem exists_encode_two {b c : UInt8}
    (hb : 0xC2 ≤ b.toNat ∧ b.toNat ≤ 0xDF) (hc : isContinuation c = true) :
    ∃ char : Char, [b, c] = String.utf8EncodeChar char := by
  rw [isContinuation_iff] at hc
  obtain ⟨char, hchar⟩ :=
    exists_char (.inl (by omega : b.toNat % 32 * 64 + c.toNat % 64 < 0xD800))
  refine ⟨char, ?_⟩
  simp only [String.utf8EncodeChar, hchar]
  rw [if_neg (by omega), if_pos (by omega)]
  simp only [List.cons.injEq, ← UInt8.toNat_inj, UInt8.toNat_ofNat', and_true]
  omega

private theorem exists_encode_three {b c d : UInt8}
    (hb : 0xE0 ≤ b.toNat ∧ b.toNat ≤ 0xEF) (hc : secondOk b c = true)
    (hd : isContinuation d = true) :
    ∃ char : Char, [b, c, d] = String.utf8EncodeChar char := by
  rw [secondOk_iff] at hc
  rw [isContinuation_iff] at hd
  have hvalid : (b.toNat % 16 * 4096 + c.toNat % 64 * 64 + d.toNat % 64).isValidChar := by
    simp only [Nat.isValidChar]
    omega
  obtain ⟨char, hchar⟩ := exists_char hvalid
  refine ⟨char, ?_⟩
  simp only [String.utf8EncodeChar, hchar]
  rw [if_neg (by omega), if_neg (by omega), if_pos (by omega)]
  simp only [List.cons.injEq, ← UInt8.toNat_inj, UInt8.toNat_ofNat', and_true]
  omega

private theorem exists_encode_four {b c d e : UInt8}
    (hb : 0xF0 ≤ b.toNat ∧ b.toNat ≤ 0xF4) (hc : secondOk b c = true)
    (hd : isContinuation d = true) (he : isContinuation e = true) :
    ∃ char : Char, [b, c, d, e] = String.utf8EncodeChar char := by
  rw [secondOk_iff] at hc
  rw [isContinuation_iff] at hd he
  have hvalid : (b.toNat % 8 * 262144 + c.toNat % 64 * 4096 + d.toNat % 64 * 64 +
      e.toNat % 64).isValidChar := by
    simp only [Nat.isValidChar]
    omega
  obtain ⟨char, hchar⟩ := exists_char hvalid
  refine ⟨char, ?_⟩
  simp only [String.utf8EncodeChar, hchar]
  rw [if_neg (by omega), if_neg (by omega), if_neg (by omega)]
  simp only [List.cons.injEq, ← UInt8.toNat_inj, UInt8.toNat_ofNat', and_true]
  omega

theorem exists_char_of_first {b : UInt8} {rest encoded : Bytes} {code : Nat}
    (h : first b rest = .char code encoded) :
    ∃ c : Char, encoded = String.utf8EncodeChar c := by
  unfold first at h
  simp only [UInt8.lt_iff_toNat_lt, UInt8.le_iff_toNat_le, Bool.and_eq_true,
    decide_eq_true_eq, UInt8.reduceToNat] at h
  split at h
  · rename_i hb
    cases h
    exact exists_encode_one hb
  · split at h
    · rename_i hb
      split at h
      · split at h
        · rename_i hc
          cases h
          exact exists_encode_two hb hc
        · cases h
      · cases h
    · split at h
      · rename_i hb
        split at h
        · split at h
          · rename_i hok
            cases h
            exact exists_encode_three hb hok.1 hok.2
          · cases h
        · cases h
      · split at h
        · rename_i hb
          split at h
          · split at h
            · rename_i hok
              cases h
              exact exists_encode_four hb hok.1.1 hok.1.2 hok.2
            · cases h
          · cases h
        · cases h

end Scriptlet.Utf8
