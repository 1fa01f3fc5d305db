import Scriptlet.Proofs.Text.WellFormed

/-!
# Texts as runes

Every rune of a text is the encoding of a character or a stray byte
(`proper_of_mem_runes`).  A well-formed text is its characters, and nothing is left to
repair in it (`repair_of_wellFormed`).
-/

namespace Scriptlet

namespace Rune

def repaired : Rune → Bytes
  | char _ encoded => encoded
  | stray _ => replacement

def ofChar (c : Char) : Rune := char c.toNat (String.utf8EncodeChar c)

def Proper : Rune → Prop
  | char code encoded => ∃ c : Char, char code encoded = ofChar c
  | stray _ => True

theorem Proper.wellFormed_repaired {r : Rune} (hr : r.Proper) : Utf8.WellFormed r.repaired := by
  cases r with
  | stray byte => exact ⟨"\uFFFD", show replacement = _ by decide⟩
  | char code encoded =>
      obtain ⟨c, hc⟩ := hr
      cases hc
      exact Utf8.wellFormed_encodeChar c

theorem encode_toNat (c : Char) : encode c.toNat = String.utf8EncodeChar c := by
  have hvalid : c.toNat < 0xD800 ∨ 0xDFFF < c.toNat ∧ c.toNat < 0x110000 := c.valid
  unfold String.utf8EncodeChar encode
  simp only [← Char.toNat.eq_def, Nat.lt_succ_iff]
  split
  · rfl
  · split
    · rw [Nat.mod_eq_of_lt (by omega : c.toNat / 64 < 32), Nat.add_comm 0xC0, Nat.add_comm 0x80]
    · split
      · rw [Nat.mod_eq_of_lt (by omega : c.toNat / 4096 < 16), Nat.add_comm 0xE0,
          Nat.add_comm 0x80, Nat.add_comm 0x80]
      · rw [Nat.mod_eq_of_lt (by omega : c.toNat / 262144 < 8), Nat.add_comm 0xF0,
          Nat.add_comm 0x80, Nat.add_comm 0x80, Nat.add_comm 0x80]

end Rune

namespace Utf8

private theorem proper_first (b : UInt8) (rest : Bytes) : (first b rest).Proper := by
  cases hfirst : first b rest with
  | stray byte => trivial
  | char code encoded =>
      obtain ⟨c, hc⟩ := exists_char_of_first hfirst
      obtain ⟨more, hmore, behind, hbehind⟩ := bytes_first b rest
      rw [hfirst, Rune.bytes] at hmore
      refine ⟨c, ?_⟩
      rw [← hfirst, ← hbehind, first_encodeChar c behind (hc.symm.trans hmore), Rune.ofChar,
        ← hc, hmore]

private theorem proper_of_mem_runesFrom {done : List Rune} {s : Bytes} {r : Rune}
    (hdone : ∀ r ∈ done, r.Proper) (h : r ∈ runesFrom done s) : r.Proper := by
  induction hn : s.length using Nat.strongRecOn generalizing done s with
  | ind n ih =>
      subst hn
      cases s with
      | nil =>
          rw [runesFrom, List.mem_reverse] at h
          exact hdone r h
      | cons b rest =>
          rw [runesFrom] at h
          refine ih _ ?_ (List.forall_mem_cons.mpr ⟨proper_first b rest, hdone⟩) h rfl
          rw [List.length_drop, List.length_cons]
          omega

theorem proper_of_mem_runes {s : Bytes} {r : Rune} (h : r ∈ runes s) : r.Proper :=
  proper_of_mem_runesFrom (List.forall_mem_nil _) h

theorem repair_eq (s : Bytes) : repair s = (runes s).flatMap Rune.repaired := by
  refine congrArg (List.flatMap · (runes s)) (funext fun r => ?_)
  cases r <;> rfl

/-! ## Well-formed texts -/

private theorem runesFrom_encode (done : List Rune) (chars : List Char) :
    runesFrom done (chars.flatMap String.utf8EncodeChar) =
      done.reverse ++ chars.map Rune.ofChar := by
  induction chars generalizing done with
  | nil => simp [runesFrom]
  | cons c chars ih =>
      obtain ⟨b, more, hencode⟩ := exists_cons_encodeChar c
      have hrune : Rune.char c.toNat (b :: more) = Rune.ofChar c := by rw [Rune.ofChar, hencode]
      rw [List.flatMap_cons, hencode, List.cons_append, runesFrom,
        first_encodeChar c _ hencode, hrune, Rune.ofChar, Rune.bytes, hencode, List.length_cons,
        Nat.add_sub_cancel, List.drop_left, ih]
      simp [hrune]

theorem repair_of_wellFormed {s : Bytes} (h : WellFormed s) : repair s = s := by
  obtain ⟨chars, rfl⟩ := wellFormed_iff.mp h
  rw [repair_eq, runes, runesFrom_encode, List.reverse_nil, List.nil_append, List.flatMap_map]
  rfl

end Utf8

end Scriptlet
