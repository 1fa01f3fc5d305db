import Scriptlet.Proofs.Datum.JsonReader
import Scriptlet.Proofs.Text.Runes

/-!
# Texts in JSON

A text is read back from its JSON form, with each stray byte replaced
(`text?_string`), and that form is printable (`printable_string`).
-/

namespace Scriptlet.Json

def Bare (b : UInt8) : Prop := b ≠ quote ∧ b ≠ 0x5C ∧ 0x20 ≤ b.toNat

theorem bare_of_large {b : UInt8} (h : 0x80 ≤ b.toNat) : Bare b := by
  refine ⟨?_, ?_, by omega⟩
  · rintro rfl
    exact absurd h (by decide)
  · rintro rfl
    exact absurd h (by decide)

/-! ## Reading -/

private theorem text?_quote (rest : Bytes) : text? (quote :: rest) = some ([], rest) := by
  rw [text?, if_pos (beq_self_eq_true quote)]

private theorem text?_escape {s char behind : Bytes} (h : escape? s = some (char, behind)) :
    text? (0x5C :: s) = (text? behind).map (prepend char) := by
  rw [text?, if_neg (by decide), if_pos (by decide)]
  split
  · rename_i hnone
    rw [h] at hnone
    cases hnone
  · rename_i hsome
    rw [h] at hsome
    cases hsome
    rfl

private theorem text?_bare {b : UInt8} (hb : Bare b) (rest : Bytes) :
    text? (b :: rest) = (text? rest).map (prepend [b]) := by
  obtain ⟨hquote, hbackslash, hcontrol⟩ := hb
  rw [text?, if_neg (by simpa using hquote), if_neg (by simpa using hbackslash),
    if_neg (by simp [UInt8.lt_iff_toNat_lt]; omega)]

private theorem text?_bare_append {front : Bytes} (hfront : ∀ b ∈ front, Bare b) (rest : Bytes) :
    text? (front ++ rest) = (text? rest).map (prepend front) := by
  induction front with
  | nil =>
      rw [List.nil_append]
      cases text? rest <;> rfl
  | cons b front ih =>
      obtain ⟨hb, hfront⟩ := List.forall_mem_cons.mp hfront
      rw [List.cons_append, text?_bare hb, ih hfront, Option.map_map]
      rfl

/-! ## Escaped characters -/

private theorem hexValue?_hexDigit {n : Nat} (hn : n < 16) :
    Bytes.hexValue? (Bytes.hexDigit n) = some n := by
  have hall : ∀ n < 16, Bytes.hexValue? (Bytes.hexDigit n) = some n := by decide
  exact hall n hn

private theorem hexDigits?_hex {code : Nat} (h : code < 0x10000) :
    hexDigits? (Bytes.hex 4 code) = some code := by
  have hdigits : Bytes.hex 4 code =
      [code / 16 / 16 / 16 % 16, code / 16 / 16 % 16, code / 16 % 16, code % 16].map
        Bytes.hexDigit := rfl
  have hvalue (n : Nat) : Bytes.hexValue? (Bytes.hexDigit (n % 16)) = some (n % 16) :=
    hexValue?_hexDigit (Nat.mod_lt n (by decide))
  simp only [hexDigits?, hdigits, List.map_cons, List.map_nil, List.foldlM_cons, List.foldlM_nil,
    hvalue, Option.map_some, Option.bind_eq_bind, Option.bind_some, Option.pure_def,
    Option.some.injEq]
  omega

private theorem hexDigit_bounds (n : Nat) :
    0x20 ≤ (Bytes.hexDigit (n % 16)).toNat ∧ (Bytes.hexDigit (n % 16)).toNat < 0x80 := by
  have hall : ∀ n < 16, 0x20 ≤ (Bytes.hexDigit n).toNat ∧ (Bytes.hexDigit n).toNat < 0x80 := by
    decide
  exact hall _ (Nat.mod_lt n (by decide))

/-- Visible ASCII in which the reader, behind a backslash, finds the character. -/
def Escapes (marks char : Bytes) : Prop :=
  (∀ b ∈ marks, 0x20 ≤ b.toNat ∧ b.toNat < 0x80) ∧
    ∀ rest, escape? (marks ++ rest) = some (char, rest)

theorem escapes_number {c : Char} (h : c.toNat < 0x10000) :
    Escapes (0x75 :: Bytes.hex 4 c.toNat) (String.utf8EncodeChar c) := by
  have hvalid : c.toNat < 0xD800 ∨ 0xDFFF < c.toNat ∧ c.toNat < 0x110000 := c.valid
  have hlength : (Bytes.hex 4 c.toNat).length = 4 := by simp [Bytes.hex]
  constructor
  · simp [Bytes.hex, hexDigit_bounds]
  · intro rest
    have htake : (Bytes.hex 4 c.toNat ++ rest).take 4 = Bytes.hex 4 c.toNat :=
      List.take_left' hlength
    have hdrop : (Bytes.hex 4 c.toNat ++ rest).drop 4 = rest := List.drop_left' hlength
    rw [List.cons_append, escape?, htake, hexDigits?_hex h]
    dsimp only
    rw [if_neg, Rune.encode_toNat, hdrop]
    simp [hlength]
    omega

private theorem escapes_letter {c letter : Char} (h : escapeLetter? c.toNat = some letter) :
    Escapes [letter.toUInt8] (String.utf8EncodeChar c) := by
  have hchar : Char.ofNat c.toNat = c := Char.ofNat_toNat c
  unfold escapeLetter? at h
  rw [hchar] at h
  split at h <;> cases h <;> exact ⟨Bytes.forall_of_all (by decide), fun rest => rfl⟩

/-! ## Runes -/

private theorem bare_of_mem_encodeChar {c : Char} (hletter : escapeLetter? c.toNat = none)
    (hnumber : escapesByNumber c.toNat = false) {b : UInt8}
    (hb : b ∈ String.utf8EncodeChar c) : Bare b := by
  rcases Utf8.large_or_alone hb with hlarge | ⟨hsame, -⟩
  · exact bare_of_large hlarge
  · refine ⟨?_, ?_, ?_⟩
    · rintro rfl
      rw [← hsame] at hletter
      exact absurd hletter (by decide)
    · rintro rfl
      rw [← hsame] at hletter
      exact absurd hletter (by decide)
    · simp [escapesByNumber] at hnumber
      omega

variable (replacement : Replacement)

theorem rune_cases {r : Rune} (hr : r.Proper) :
    (rune replacement r = r.repaired ∧ ∀ b ∈ r.repaired, Bare b) ∨
      ∃ marks, rune replacement r = 0x5C :: marks ∧ Escapes marks r.repaired := by
  cases r with
  | stray byte =>
      cases replacement with
      | escaped =>
          exact .inr ⟨_, rfl, escapes_number (c := '\uFFFD') (by decide)⟩
      | literal =>
          have hlarge : ∀ b ∈ Rune.replacement, 0x80 ≤ b.toNat := Bytes.forall_of_all (by decide)
          exact .inl ⟨rfl, fun b hb => bare_of_large (hlarge b hb)⟩
  | char code encoded =>
      obtain ⟨c, hc⟩ := hr
      cases hc
      rw [rune, Rune.repaired]
      cases hletter : escapeLetter? c.toNat with
      | some letter => exact .inr ⟨_, rfl, escapes_letter hletter⟩
      | none =>
          cases hnumber : escapesByNumber c.toNat with
          | true =>
              have hsmall : c.toNat < 0x10000 := by
                simp [escapesByNumber] at hnumber
                omega
              exact .inr ⟨_, rfl, escapes_number hsmall⟩
          | false => exact .inl ⟨rfl, fun b => bare_of_mem_encodeChar hletter hnumber⟩

private theorem text?_rune {r : Rune} (hr : r.Proper) (rest : Bytes) :
    text? (rune replacement r ++ rest) = (text? rest).map (prepend r.repaired) := by
  rcases rune_cases replacement hr with ⟨hrune, hbare⟩ | ⟨marks, hrune, -, hread⟩
  · rw [hrune]
    exact text?_bare_append hbare rest
  · rw [hrune]
    exact text?_escape (hread rest)

private theorem printable_rune {r : Rune} (hr : r.Proper) :
    Utf8.Printable (rune replacement r) := by
  rcases rune_cases replacement hr with ⟨hrune, hbare⟩ | ⟨marks, hrune, hmarks, -⟩
  · rw [hrune]
    exact ⟨hr.wellFormed_repaired, fun b hb => (hbare b hb).2.2⟩
  · rw [hrune]
    exact Utf8.printable_of_ascii (List.forall_mem_cons.mpr ⟨by decide, hmarks⟩)

/-! ## Texts -/

theorem text?_string (s rest : Bytes) :
    text? ((Utf8.runes s).flatMap (rune replacement) ++ [quote] ++ rest) =
      some (Utf8.repair s, rest) := by
  have hrunes (runes : List Rune) (hproper : ∀ r ∈ runes, r.Proper) :
      text? (runes.flatMap (rune replacement) ++ [quote] ++ rest) =
        some (runes.flatMap Rune.repaired, rest) := by
    induction runes with
    | nil => exact text?_quote rest
    | cons r runes ih =>
        obtain ⟨hr, hproper⟩ := List.forall_mem_cons.mp hproper
        rw [List.flatMap_cons, List.append_assoc, List.append_assoc, text?_rune replacement hr,
          ← List.append_assoc, ih hproper]
        rfl
  rw [Utf8.repair_eq]
  exact hrunes _ fun r => Utf8.proper_of_mem_runes

theorem printable_string (s : Bytes) : Utf8.Printable (string replacement s) := by
  have hquote : Utf8.Printable [quote] :=
    Utf8.printable_of_ascii (Bytes.forall_of_all (by decide))
  have hrunes : Utf8.Printable ((Utf8.runes s).flatMap (rune replacement)) :=
    Utf8.printable_flatMap fun r hr => printable_rune replacement (Utf8.proper_of_mem_runes hr)
  exact (hquote.append hrunes).append hquote

/-- A byte that is no character, in the two forms of its replacement. -/
example : string .escaped [0xFF] = utf8 "\"\\ufffd\"" ∧
    string .literal [0xFF] = [quote, 0xEF, 0xBF, 0xBD, quote] := by decide +kernel

end Scriptlet.Json
