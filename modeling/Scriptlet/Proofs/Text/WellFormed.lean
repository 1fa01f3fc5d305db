import Scriptlet.Proofs.Text.Encoding
import Scriptlet.Proofs.Text.Pieces

/-!
# Well-formed texts

A byte string is well-formed when it is the encoding of a text.  Cut in front of
an ASCII byte, behind one, or behind the encoding of a character, it falls into
well-formed parts (`WellFormed.cut`, `WellFormed.of_encodeChar_append`).  A printable
text is one line.
-/

namespace Scriptlet.Utf8

def WellFormed (s : Bytes) : Prop := ∃ text : String, s = utf8 text

theorem wellFormed_iff {s : Bytes} :
    WellFormed s ↔ ∃ chars : List Char, s = chars.flatMap String.utf8EncodeChar := by
  have hencode (chars : List Char) :
      utf8 (String.ofList chars) = chars.flatMap String.utf8EncodeChar := by
    simp [utf8, List.utf8Encode]
  constructor
  · rintro ⟨text, rfl⟩
    exact ⟨text.toList, by rw [← hencode, String.ofList_toList]⟩
  · rintro ⟨chars, rfl⟩
    exact ⟨String.ofList chars, (hencode chars).symm⟩

theorem wellFormed_nil : WellFormed [] := ⟨"", rfl⟩

theorem wellFormed_encodeChar (c : Char) : WellFormed (String.utf8EncodeChar c) :=
  wellFormed_iff.mpr ⟨[c], by simp⟩

theorem wellFormed_ascii {b : UInt8} (hb : b.toNat < 0x80) : WellFormed [b] := by
  obtain ⟨c, hc⟩ := exists_char_of_first (first_one [] hb)
  rw [hc]
  exact wellFormed_encodeChar c

theorem WellFormed.append {s s' : Bytes} (h : WellFormed s) (h' : WellFormed s') :
    WellFormed (s ++ s') := by
  obtain ⟨chars, rfl⟩ := wellFormed_iff.mp h
  obtain ⟨chars', rfl⟩ := wellFormed_iff.mp h'
  exact wellFormed_iff.mpr ⟨chars ++ chars', by rw [List.flatMap_append]⟩

private theorem wellFormed_of_ascii {s : Bytes} (hs : ∀ b ∈ s, b.toNat < 0x80) : WellFormed s := by
  induction s with
  | nil => exact wellFormed_nil
  | cons b s ih =>
      obtain ⟨hb, hs⟩ := List.forall_mem_cons.mp hs
      exact (wellFormed_ascii hb).append (ih hs)

theorem exists_cons_encodeChar (c : Char) : ∃ b more, String.utf8EncodeChar c = b :: more := by
  refine List.exists_cons_of_ne_nil fun hnil => ?_
  have hsize := String.length_utf8EncodeChar c
  have hpos := c.utf8Size_pos
  simp [hnil] at hsize
  omega

theorem toNat_of_mem_encodeChar {c : Char} {b : UInt8} {more : Bytes}
    (h : String.utf8EncodeChar c = b :: more) :
    (∀ d ∈ more, 0x80 ≤ d.toNat) ∧ (b.toNat < 0x80 → more = []) := by
  have hvalid : c.toNat < 0xD800 ∨ 0xDFFF < c.toNat ∧ c.toNat < 0x110000 := c.valid
  unfold String.utf8EncodeChar at h
  simp only [← Char.toNat.eq_def] at h
  split at h
  · cases h
    simp
  · split at h
    · cases h
      simp
      omega
    · split at h
      · cases h
        simp
        omega
      · cases h
        simp
        omega

theorem WellFormed.exists_char {b : UInt8} {rest : Bytes} (h : WellFormed (b :: rest)) :
    ∃ (c : Char) (more behind : Bytes), String.utf8EncodeChar c = b :: more ∧
      rest = more ++ behind ∧ WellFormed behind := by
  obtain ⟨chars, hchars⟩ := wellFormed_iff.mp h
  cases chars with
  | nil => simp at hchars
  | cons c chars =>
      obtain ⟨d, more, hencode⟩ := exists_cons_encodeChar c
      rw [List.flatMap_cons, hencode, List.cons_append, List.cons.injEq] at hchars
      obtain ⟨rfl, rfl⟩ := hchars
      exact ⟨c, more, _, hencode, rfl, wellFormed_iff.mpr ⟨chars, rfl⟩⟩

theorem WellFormed.cut {front behind : Bytes} {b : UInt8} (hb : b.toNat < 0x80)
    (h : WellFormed (front ++ b :: behind)) : WellFormed front ∧ WellFormed behind := by
  induction hn : front.length using Nat.strongRecOn generalizing front with
  | ind n ih =>
      subst hn
      cases front with
      | nil =>
          obtain ⟨c, more, after, hencode, rfl, hafter⟩ := h.exists_char
          obtain rfl := (toNat_of_mem_encodeChar hencode).2 hb
          exact ⟨wellFormed_nil, hafter⟩
      | cons a front =>
          obtain ⟨c, more, after, hencode, hsplit, hafter⟩ := h.exists_char
          -- The character at the front ends in front of the ASCII byte.
          have hbefore : ∃ middle, front = more ++ middle ∧ after = middle ++ b :: behind := by
            rcases List.append_eq_append_iff.mp hsplit with ⟨middle, hmore, hmiddle⟩ | hmiddle
            · cases middle with
              | nil => exact ⟨[], by simpa using hmore.symm, hmiddle.symm⟩
              | cons d middle =>
                  obtain ⟨rfl, -⟩ := List.cons.inj hmiddle
                  have hlarge := (toNat_of_mem_encodeChar hencode).1 b (by simp [hmore])
                  omega
            · exact hmiddle
          obtain ⟨middle, rfl, rfl⟩ := hbefore
          have hshort : middle.length < (a :: (more ++ middle)).length := by
            rw [List.length_cons, List.length_append]
            omega
          obtain ⟨hmiddle, hbehind⟩ := ih middle.length hshort hafter rfl
          refine ⟨?_, hbehind⟩
          rw [← List.cons_append, ← hencode]
          exact (wellFormed_encodeChar c).append hmiddle

theorem WellFormed.tail {b : UInt8} {behind : Bytes} (hb : b.toNat < 0x80)
    (h : WellFormed (b :: behind)) : WellFormed behind := by
  rw [← List.nil_append (b :: behind)] at h
  exact (h.cut hb).2

theorem WellFormed.parts {front behind : Bytes} {b : UInt8} (hb : b.toNat < 0x80)
    (h : WellFormed (front ++ [b] ++ behind)) :
    WellFormed (front ++ [b]) ∧ WellFormed behind := by
  rw [List.append_assoc, List.singleton_append] at h
  obtain ⟨hfront, hbehind⟩ := h.cut hb
  exact ⟨hfront.append (wellFormed_ascii hb), hbehind⟩

theorem WellFormed.of_encodeChar_append {c : Char} {rest : Bytes}
    (h : WellFormed (String.utf8EncodeChar c ++ rest)) : WellFormed rest := by
  obtain ⟨b, more, hencode⟩ := exists_cons_encodeChar c
  rw [hencode, List.cons_append] at h
  obtain ⟨c', more', behind, hencode', hsplit, hbehind⟩ := h.exists_char
  -- Both characters are what is read at the front.
  have hfirst := first_encodeChar c rest hencode
  rw [hsplit, first_encodeChar c' behind hencode', Rune.char.injEq, List.cons.injEq] at hfirst
  rw [hfirst.2.2] at hsplit
  rwa [List.append_cancel_left hsplit]

/-! ## Printable texts -/

/-- A well-formed text without control characters. -/
structure Printable (s : Bytes) : Prop where
  wellFormed : WellFormed s
  visible : ∀ b ∈ s, 0x20 ≤ b.toNat

theorem printable_nil : Printable [] := ⟨wellFormed_nil, List.forall_mem_nil _⟩

theorem printable_of_ascii {s : Bytes} (hs : ∀ b ∈ s, 0x20 ≤ b.toNat ∧ b.toNat < 0x80) :
    Printable s :=
  ⟨wellFormed_of_ascii fun b hb => (hs b hb).2, fun b hb => (hs b hb).1⟩

theorem printable_utf8 {text : String}
    (h : ((utf8 text).all fun b => decide (0x20 ≤ b.toNat ∧ b.toNat < 0x80)) = true) :
    Printable (utf8 text) :=
  printable_of_ascii (Bytes.forall_of_all h)

theorem Printable.append {s s' : Bytes} (h : Printable s) (h' : Printable s') :
    Printable (s ++ s') :=
  ⟨h.wellFormed.append h'.wellFormed, fun b hb =>
    (List.mem_append.mp hb).elim (h.visible b) (h'.visible b)⟩

theorem printable_flatMap {α : Type} {f : α → Bytes} {l : List α}
    (h : ∀ a ∈ l, Printable (f a)) : Printable (l.flatMap f) := by
  induction l with
  | nil => exact printable_nil
  | cons a l ih =>
      obtain ⟨ha, hl⟩ := List.forall_mem_cons.mp h
      rw [List.flatMap_cons]
      exact ha.append (ih hl)

theorem printable_join {separator : Bytes} {parts : List Bytes} (hseparator : Printable separator)
    (h : ∀ part ∈ parts, Printable part) : Printable (Bytes.join separator parts) := by
  cases parts with
  | nil => exact printable_nil
  | cons first parts =>
      obtain ⟨hfirst, hparts⟩ := List.forall_mem_cons.mp h
      rw [Bytes.join_cons]
      exact hfirst.append
        (printable_flatMap fun part hpart => hseparator.append (hparts part hpart))

theorem Printable.newline_not_mem {s : Bytes} (h : Printable s) : newline ∉ s :=
  fun hmem => absurd (h.visible newline hmem) (by decide)

end Scriptlet.Utf8
