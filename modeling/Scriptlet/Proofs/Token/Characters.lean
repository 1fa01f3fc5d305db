import Scriptlet.Proofs.Text.WellFormed
import Scriptlet.Proofs.Token.Tokenization

/-!
# Characters are never split

Every segment of a well-formed source is well-formed: it ends in an ASCII byte,
in front of a newline or with the source, or it is one foreign character
(`Segment.Longest.wellFormed`).  So are lexemes and the texts of strings, and an
error token is always one character or one byte (`Scan.ofSource_characters`).
-/

namespace Scriptlet

open Utf8 (WellFormed)

namespace Segment

/-! ## Where segments end -/

theorem toNat_of_isDigit {b : UInt8} (h : Bytes.isDigit b = true) : b.toNat < 0x80 := by
  simp [Bytes.isDigit, UInt8.le_iff_toNat_le] at h
  omega

theorem toNat_of_isLetter {b : UInt8} (h : Bytes.isLetter b = true) : b.toNat < 0x80 := by
  simp [Bytes.isLetter, Bytes.isLower, Bytes.isUpper, UInt8.le_iff_toNat_le] at h
  omega

theorem exists_last_of_ascii {s : Bytes} (hne : s ≠ []) (hascii : ∀ b ∈ s, b.toNat < 0x80) :
    ∃ front b, s = front ++ [b] ∧ b.toNat < 0x80 :=
  ⟨s.dropLast, s.getLast hne, (List.dropLast_append_getLast hne).symm,
    hascii _ (List.getLast_mem hne)⟩

private theorem ascii_of_operators {spelling : Bytes} {kind : Kind}
    (hentry : (spelling, kind) ∈ operators) :
    spelling ≠ [] ∧ ∀ b ∈ spelling, b.toNat < 0x80 := by
  have hall : ∀ entry ∈ operators, entry.1 ≠ [] ∧ ∀ b ∈ entry.1, b.toNat < 0x80 := by
    decide +kernel
  exact hall (spelling, kind) hentry

theorem Regular.exists_last {segment : Segment} (h : Regular segment)
    (hclosed : segment.isOpen = false) :
    (∃ body, newline ∉ body ∧ segment = .comment (slash :: slash :: body)) ∨
      ∃ front b, segment.text = front ++ [b] ∧ b.toNat < 0x80 := by
  cases h with
  | blank hbyte =>
      have hall : ∀ b ∈ utf8 " \r\t\n", b.toNat < 0x80 := by decide +kernel
      exact .inr ⟨[], _, rfl, hall _ hbyte⟩
  | line hbody => exact .inl ⟨_, hbody, rfl⟩
  | @block body hbody =>
      exact .inr ⟨slash :: star :: body ++ [star], slash, by simp [text], by decide⟩
  | operator hentry =>
      obtain ⟨hne, hascii⟩ := ascii_of_operators hentry
      exact .inr (exists_last_of_ascii hne hascii)
  | integer hne hwhole =>
      exact .inr (exists_last_of_ascii hne fun b hb => toNat_of_isDigit (hwhole b hb))
  | @decimal whole fraction hne hwhole hne' hfraction =>
      obtain ⟨front, b, hlast, hb⟩ :=
        exists_last_of_ascii hne' fun b hb => toNat_of_isDigit (hfraction b hb)
      exact .inr ⟨whole ++ Decimal.point :: front, b, by simp [text, hlast], hb⟩
  | keyword hentry =>
      obtain ⟨hne, hletters⟩ := letters_keyword hentry
      exact .inr (exists_last_of_ascii hne fun b hb => toNat_of_isLetter (hletters b hb))
  | identifier hne hletters hfree =>
      exact .inr (exists_last_of_ascii hne fun b hb => toNat_of_isLetter (hletters b hb))
  | @string body hbody => exact .inr ⟨quote :: body, quote, rfl, by decide⟩
  | openString hbody => cases hclosed
  | openComment hbody => cases hclosed

theorem Longest.newline_behind {source rest body : Bytes} (hbody : newline ∉ body)
    (h : Longest (.comment (slash :: slash :: body)) source)
    (hsource : source = slash :: slash :: body ++ rest) :
    rest = [] ∨ ∃ more, rest = newline :: more := by
  cases rest with
  | nil => exact .inl rfl
  | cons b more =>
      by_cases hb : b = newline
      · exact .inr ⟨more, by rw [hb]⟩
      · have hlonger : Fits (.comment (slash :: slash :: (body ++ [b]))) source :=
          ⟨.inl (.line (by simp [hbody, Ne.symm hb])), ⟨more, by simp [text, hsource]⟩,
            Bool.noConfusion⟩
        have hle := h.greatest _ hlonger
        simp only [text, List.length_cons, List.length_append] at hle
        omega

/-! ## Segments of well-formed sources -/

section WellFormed

variable {source : Bytes} (hwell : WellFormed source)
include hwell

theorem Longest.exists_char {segment : Segment} (h : Longest segment source)
    (hforeign : Foreign segment) : ∃ c : Char, segment.text = String.utf8EncodeChar c := by
  cases hforeign with
  | char c hencode hopens => exact ⟨c, hencode.symm⟩
  | @byte b hopens =>
      obtain ⟨rest, rfl⟩ := h.fits.starts
      obtain ⟨c, more, behind, hencode, hsplit, -⟩ := WellFormed.exists_char hwell
      have hlonger : Fits (.lexeme .error (b :: more)) (b :: rest) :=
        ⟨.inr (.char c hencode hopens), ⟨behind, congrArg (b :: ·) hsplit.symm⟩,
          Bool.noConfusion⟩
      have hle := h.greatest _ hlonger
      have hnil : more = [] := by simpa [text] using hle
      exact ⟨c, by rw [hencode, hnil, text]⟩

theorem Longest.wellFormed {segment : Segment} {rest : Bytes} (h : Longest segment source)
    (hsource : source = segment.text ++ rest) : WellFormed segment.text ∧ WellFormed rest := by
  have hwhole : WellFormed (segment.text ++ rest) := hsource ▸ hwell
  have hall : rest = [] → WellFormed segment.text ∧ WellFormed rest := by
    rintro rfl
    exact ⟨by simpa using hwhole, Utf8.wellFormed_nil⟩
  rcases h.fits.formed with hregular | hforeign
  · by_cases hopen : segment.isOpen = true
    · have hself := h.fits.closed hopen
      rw [hsource, List.self_eq_append_right] at hself
      exact hall hself
    · rcases hregular.exists_last (Bool.eq_false_iff.mpr hopen) with
        ⟨body, hbody, rfl⟩ | ⟨front, b, hlast, hb⟩
      · rcases h.newline_behind hbody hsource with hnil | ⟨more, rfl⟩
        · exact hall hnil
        · obtain ⟨hcomment, hmore⟩ := hwhole.cut (by decide)
          exact ⟨hcomment, (Utf8.wellFormed_ascii (by decide)).append hmore⟩
      · rw [hlast] at hwhole ⊢
        exact hwhole.parts hb
  · obtain ⟨c, hc⟩ := h.exists_char hwell hforeign
    rw [hc] at hwhole ⊢
    exact ⟨Utf8.wellFormed_encodeChar c, hwhole.of_encodeChar_append⟩

theorem Tiles.wellFormed {segments : List Segment} (h : Tiles source segments) :
    ∀ segment ∈ segments, WellFormed segment.text ∧
      (Foreign segment → ∃ c : Char, segment.text = String.utf8EncodeChar c) := by
  induction h with
  | nil => simp
  | cons longest hsource tiles ih =>
      obtain ⟨htext, hrest⟩ := longest.wellFormed hwell hsource
      intro other hother
      rcases List.mem_cons.mp hother with rfl | hlater
      · exact ⟨htext, longest.exists_char hwell⟩
      · exact ih hrest other hlater

end WellFormed

/-! ## The tokens of segments -/

theorem lexeme_of_token? {policy : Unterminated} {segment : Segment} {line : Nat} {t : Token}
    (htoken : segment.token? policy line = some t) : t.lexeme = segment.text := by
  cases segment with
  | openString content =>
      cases policy with
      | error => cases htoken
      | eof =>
          cases htoken
          rfl
  | lexeme kind content =>
      cases htoken
      rfl
  | _ => cases htoken

theorem foreign_of_error {policy : Unterminated} {segment : Segment} {line : Nat} {t : Token}
    (hformed : Regular segment ∨ Foreign segment) (htoken : segment.token? policy line = some t)
    (hkind : t.kind = .error) : Foreign segment := by
  rcases hformed with hregular | hforeign
  · cases hregular with
    | @operator spelling kind hentry =>
        cases htoken
        have hall : ∀ entry ∈ operators, entry.2 ≠ .error := by decide
        exact absurd hkind (hall (spelling, kind) hentry)
    | @keyword word kind hentry =>
        cases htoken
        have hall : ∀ entry ∈ Kind.keywords, entry.2 ≠ .error := by decide
        exact absurd hkind (hall (word, kind) hentry)
    | openString hbody =>
        cases policy with
        | error => cases htoken
        | eof =>
            cases htoken
            cases hkind
    | blank _ | line _ | block _ | openComment _ => cases htoken
    | integer _ _ | decimal _ _ _ _ | identifier _ _ _ | string _ =>
        cases htoken
        cases hkind
  · exact hforeign

theorem Foreign.char_or_byte {segment : Segment} (h : Foreign segment) :
    (∃ c : Char, segment.text = String.utf8EncodeChar c ∧ 1 < segment.text.length) ∨
      ∃ b, segment.text = [b] := by
  cases h with
  | @byte b hopens => exact .inr ⟨b, rfl⟩
  | @char b more c hencode hopens =>
      cases more with
      | nil => exact .inr ⟨b, rfl⟩
      | cons d more => exact .inl ⟨c, hencode.symm, by simp [text]⟩

end Segment

theorem Token.Valued.wellFormed {policy : Unterminated} {t : Token} (h : t.Valued policy)
    (hkind : t.kind = .string) (hwell : WellFormed t.lexeme) :
    ∃ s, t.payload = .text s ∧ WellFormed s := by
  obtain ⟨content, -, hpayload, hlexeme⟩ := h.string hkind
  refine ⟨content, hpayload, ?_⟩
  rcases hlexeme with hclosed | ⟨-, hopen⟩
  · rw [hclosed] at hwell
    obtain ⟨hfront, -⟩ := hwell.cut (by decide)
    exact hfront.tail (by decide)
  · rw [hopen] at hwell
    exact hwell.tail (by decide)

namespace Scan

/--
No token splits a character.  The lexemes and string texts of a well-formed source
are well-formed, and its error tokens are one character each; in any source an error
token is a character of several bytes or a single byte.
-/
theorem ofSource_characters (policy : Unterminated) (source : Bytes) :
    (WellFormed source → ∀ t ∈ (ofSource policy source).tokens,
      WellFormed t.lexeme ∧
        (t.kind = .string → ∃ s, t.payload = .text s ∧ WellFormed s) ∧
        (t.kind = .error → ∃ c : Char, t.lexeme = String.utf8EncodeChar c)) ∧
    ∀ t ∈ (ofSource policy source).tokens, t.kind = .error →
      (∃ c : Char, t.lexeme = String.utf8EncodeChar c ∧ 1 < t.lexeme.length) ∨
        ∃ b, t.lexeme = [b] := by
  have htiles := Segment.tiles_segments source
  constructor
  · intro hwell t ht
    rcases List.mem_append.mp (tokens_ofSource policy source ▸ ht) with hlexed | hstop
    · obtain ⟨line, segment, -, hsegment, htoken⟩ := exists_segment_of_mem_lexed hlexed
      obtain ⟨htext, hchar⟩ := htiles.wellFormed hwell segment hsegment
      rw [← Segment.lexeme_of_token? htoken] at htext hchar
      refine ⟨htext, fun hkind => (valued_of_mem_lexed hlexed).1.wellFormed hkind htext, ?_⟩
      exact fun hkind =>
        hchar (Segment.foreign_of_error (htiles.formed segment hsegment) htoken hkind)
    · obtain rfl := List.mem_singleton.mp hstop
      exact ⟨Utf8.wellFormed_nil, Kind.noConfusion, Kind.noConfusion⟩
  · intro t ht hkind
    rcases List.mem_append.mp (tokens_ofSource policy source ▸ ht) with hlexed | hstop
    · obtain ⟨line, segment, -, hsegment, htoken⟩ := exists_segment_of_mem_lexed hlexed
      rw [Segment.lexeme_of_token? htoken]
      have hformed := htiles.formed segment hsegment
      exact (Segment.foreign_of_error hformed htoken hkind).char_or_byte
    · obtain rfl := List.mem_singleton.mp hstop
      cases hkind

/-- A character of two bytes, and then its first byte alone. -/
example :
    (ofSource .error [0xC3, 0xA9, 0xC3]).tokens.map Token.lexeme = [[0xC3, 0xA9], [0xC3], []] := by
  cbv

end Scan

end Scriptlet
