import Scriptlet.Proofs.Token.Cut

/-!
# Cutting is maximal munch

Any other segment that fits where a cut is made is shorter
(`reaches_of_fits`).  Hence the segments of a source are its one tiling by
longest segments (`tiles_iff`).
-/

namespace Scriptlet.Segment

open Bytes (isDigit isLetter)

/-! ## What is cut off is longest -/

/-- The cut takes `other`, or more than it. -/
def Reaches (cut : Segment × Bytes) (other : Segment) : Prop :=
  cut.1 = other ∨ other.text.length < cut.1.text.length

private theorem reaches_line {body : Bytes} (more : Bytes) (hbody : newline ∉ body) :
    Reaches (next slash (slash :: body ++ more)) (.comment (slash :: slash :: body)) := by
  have hrun := bne_of_not_mem hbody
  have hcut : (next slash (slash :: body ++ more)).1 =
      .comment (slash :: slash :: (body ++ more.takeWhile (· != newline))) := by
    simp only [next_slash, afterSlash, List.cons_append, BEq.rfl, if_true,
      List.takeWhile_append_of_pos hrun]
  cases htake : more.takeWhile (· != newline) with
  | nil =>
      left
      rw [hcut, htake, List.append_nil]
  | cons b run =>
      right
      rw [hcut, htake]
      simp [text]

private theorem reaches_block {body : Bytes} (more : Bytes)
    (hbody : ¬ [star, slash] <:+: body ++ [star]) :
    Reaches (next slash (star :: body ++ [star, slash] ++ more))
      (.comment (slash :: star :: body ++ [star, slash])) := by
  left
  have hstar : (star == slash) = false := rfl
  have hclose : closeComment [star, slash] (body ++ star :: slash :: more) = _ :=
    closeComment_append [star, slash] hbody
  have hshape : body ++ [star, slash] ++ more = body ++ star :: slash :: more := by simp
  simp only [next_slash, afterSlash, List.cons_append, hstar, Bool.false_eq_true,
    if_false, BEq.rfl, if_true, hshape, hclose]
  simp

private theorem reaches_openComment {body : Bytes} (hbody : ¬ [star, slash] <:+: body) :
    Reaches (next slash (star :: body)) (.openComment (slash :: star :: body)) := by
  left
  have hstar : (star == slash) = false := rfl
  simp only [next_slash, afterSlash, hstar, Bool.false_eq_true, if_false, BEq.rfl,
    if_true, closeComment_eq_none hbody]

private theorem reaches_slash (more : Bytes) :
    Reaches (next slash more) (.lexeme .slash [slash]) := by
  rw [next_slash]
  unfold afterSlash
  split
  · exact .inl rfl
  · split
    · right
      simp [text]
    · split
      · right
        split
        · rename_i hclose
          have hlength := closeComment_length hclose
          simp only [text, List.length_cons, List.length_nil, List.length_reverse] at hlength ⊢
          omega
        · simp [text]
      · exact .inl rfl

private theorem reaches_alone {c : UInt8} {alone extended : Kind} (more : Bytes)
    (hpaired : paired? c = some (alone, extended)) :
    Reaches (next c more) (.lexeme alone [c]) := by
  simp only [next, single_of_paired hpaired, hpaired]
  split
  · exact .inl rfl
  · split
    · right
      simp [text]
    · exact .inl rfl

private theorem reaches_string {body : Bytes} (more : Bytes) (hbody : quote ∉ body) :
    Reaches (next quote (body ++ [quote] ++ more))
      (.lexeme .string (quote :: body ++ [quote])) := by
  left
  have hrun := bne_of_not_mem hbody
  simp [next_quote, afterQuote, List.append_assoc, List.dropWhile_append_of_pos hrun,
    List.takeWhile_append_of_pos hrun]

private theorem reaches_openString {body : Bytes} (hbody : quote ∉ body) :
    Reaches (next quote body) (.openString body) := by
  left
  have hdrop : body.dropWhile (· != quote) = [] :=
    List.dropWhile_eq_nil_iff.mpr (bne_of_not_mem hbody)
  rw [next_quote, afterQuote, hdrop]

theorem reaches_word {c : UInt8} {letters : Bytes} (more : Bytes)
    (hletters : ∀ b ∈ c :: letters, isLetter b = true) :
    Reaches (next c (letters ++ more))
      (.lexeme (Kind.ofWord (c :: letters)) (c :: letters)) := by
  have hcut : (next c (letters ++ more)).1 =
      .lexeme (Kind.ofWord (c :: letters ++ more.takeWhile isLetter))
        (c :: letters ++ more.takeWhile isLetter) := by
    rw [next_of_isLetter _ (hletters c List.mem_cons_self), ← List.cons_append, word,
      List.takeWhile_append_of_pos hletters]
  cases htake : more.takeWhile isLetter with
  | nil =>
      left
      rw [hcut, htake, List.append_nil]
  | cons b run =>
      right
      rw [hcut, htake]
      simp [text]

private theorem reaches_integer {c : UInt8} {digits : Bytes} (more : Bytes)
    (hdigits : ∀ b ∈ c :: digits, isDigit b = true) :
    Reaches (next c (digits ++ more)) (.lexeme .number (c :: digits)) := by
  rw [next_of_isDigit _ (hdigits c List.mem_cons_self), ← List.cons_append]
  unfold number
  simp only [List.takeWhile_append_of_pos hdigits, List.dropWhile_append_of_pos hdigits]
  cases htake : more.takeWhile isDigit with
  | nil =>
      split
      · split
        · right
          simp [text]
        · left
          rw [List.append_nil]
      · left
        rw [List.append_nil]
  | cons d run =>
      right
      split
      · split <;> simp [text]
      · simp [text]

private theorem number_point {d : UInt8} {whole fraction : Bytes} (more : Bytes)
    (hwhole : ∀ b ∈ whole, isDigit b = true)
    (hfraction : ∀ b ∈ d :: fraction, isDigit b = true) :
    number (whole ++ Decimal.point :: d :: (fraction ++ more)) =
      (.lexeme .number
          (whole ++ Decimal.point :: d :: (fraction ++ more.takeWhile isDigit)),
        more.dropWhile isDigit) := by
  have hpoint : isDigit Decimal.point = false := by decide
  have hd : isDigit d = true := hfraction d List.mem_cons_self
  have htail : ∀ b ∈ fraction, isDigit b = true :=
    fun b hb => hfraction b (List.mem_cons_of_mem d hb)
  simp [number, List.takeWhile_append_of_pos hwhole, List.dropWhile_append_of_pos hwhole,
    List.takeWhile_append_of_pos htail, List.dropWhile_append_of_pos htail, hpoint, hd]

private theorem reaches_decimal {c d : UInt8} {whole fraction : Bytes} (more : Bytes)
    (hwhole : ∀ b ∈ c :: whole, isDigit b = true)
    (hfraction : ∀ b ∈ d :: fraction, isDigit b = true) :
    Reaches (next c (whole ++ Decimal.point :: d :: (fraction ++ more)))
      (.lexeme .number (c :: whole ++ Decimal.point :: d :: fraction)) := by
  rw [next_of_isDigit _ (hwhole c List.mem_cons_self), ← List.cons_append,
    number_point more hwhole hfraction]
  cases htake : more.takeWhile isDigit with
  | nil =>
      left
      rw [List.append_nil]
  | cons b run =>
      right
      simp [text]

private theorem reaches_char {b : UInt8} {more : Bytes} (rest : Bytes) (c : Char)
    (hencode : String.utf8EncodeChar c = b :: more) (hopens : ¬ Opens b) :
    Reaches (next b (more ++ rest)) (.lexeme .error (b :: more)) := by
  left
  rw [next_of_unclassed _ (unclassed_of_not_opens hopens)]
  simp only [other, Utf8.first_encodeChar c rest hencode, Rune.bytes]

private theorem reaches_byte {b : UInt8} (rest : Bytes) (hopens : ¬ Opens b) :
    Reaches (next b rest) (.lexeme .error [b]) := by
  obtain ⟨more, hbytes, -⟩ := Utf8.bytes_first b rest
  rw [next_of_unclassed _ (unclassed_of_not_opens hopens)]
  simp only [other, hbytes]
  cases more with
  | nil => exact .inl rfl
  | cons d more =>
      right
      simp [text]

private theorem reaches_operator {spelling : Bytes} {kind : Kind} {c : UInt8} {more : Bytes}
    (rest : Bytes) (hentry : (spelling, kind) ∈ operators) (hspelling : spelling = c :: more) :
    Reaches (next c (more ++ rest)) (.lexeme kind spelling) := by
  rcases operators_cases hentry with ⟨d, rfl, hsingle⟩ |
    ⟨d, alone, extended, hpaired, ⟨rfl, rfl⟩ | ⟨rfl, rfl⟩⟩ | ⟨rfl, rfl⟩
  · cases hspelling
    rw [List.nil_append, next_of_single rest hsingle]
    exact .inl rfl
  · cases hspelling
    exact reaches_alone rest hpaired
  · cases hspelling
    left
    simp only [next, single_of_paired hpaired, hpaired, List.singleton_append, BEq.rfl,
      if_true]
  · cases hspelling
    exact reaches_slash rest

private theorem reaches_regular {segment : Segment} {c : UInt8} {more rest : Bytes}
    (hregular : Regular segment) (htext : segment.text = c :: more)
    (hclosed : segment.isOpen = true → rest = []) :
    Reaches (next c (more ++ rest)) segment := by
  cases hregular with
  | blank hbyte =>
      cases htext
      rw [next_of_isBlank _ ((mem_blanks_iff c).mp hbyte)]
      exact .inl rfl
  | line hbody =>
      cases htext
      exact reaches_line rest hbody
  | block hbody =>
      cases htext
      exact reaches_block rest hbody
  | operator hentry => exact reaches_operator rest hentry htext
  | integer hne hwhole =>
      cases htext
      exact reaches_integer rest hwhole
  | @decimal whole fraction hne hwhole hne' hfraction =>
      cases whole with
      | nil => exact absurd rfl hne
      | cons b whole =>
          cases fraction with
          | nil => exact absurd rfl hne'
          | cons d fraction =>
              cases htext
              have hreaches := reaches_decimal rest hwhole hfraction
              simpa using hreaches
  | @keyword word kind hentry =>
      have hletters := (letters_keyword hentry).2
      have hkind := ofWord_keyword hentry
      change utf8 word = c :: more at htext
      rw [htext] at hletters hkind ⊢
      rw [← hkind]
      exact reaches_word rest hletters
  | identifier hne hletters hfree =>
      cases htext
      rw [← ofWord_free hfree]
      exact reaches_word rest hletters
  | string hbody =>
      cases htext
      exact reaches_string rest hbody
  | openString hbody =>
      cases htext
      rw [hclosed rfl, List.append_nil]
      exact reaches_openString hbody
  | openComment hbody =>
      cases htext
      rw [hclosed rfl, List.append_nil]
      exact reaches_openComment hbody

private theorem reaches_foreign {segment : Segment} {c : UInt8} {more : Bytes} (rest : Bytes)
    (hforeign : Foreign segment) (htext : segment.text = c :: more) :
    Reaches (next c (more ++ rest)) segment := by
  cases hforeign with
  | char char hencode hopens =>
      cases htext
      exact reaches_char rest char hencode hopens
  | byte hopens =>
      cases htext
      exact reaches_byte rest hopens

theorem text_ne_nil {segment : Segment} (h : Regular segment ∨ Foreign segment) :
    segment.text ≠ [] := by
  rcases h with hregular | hforeign
  · cases hregular with
    | operator hentry =>
        rcases operators_cases hentry with ⟨c, rfl, -⟩ |
          ⟨c, alone, extended, -, ⟨rfl, -⟩ | ⟨rfl, -⟩⟩ | ⟨rfl, -⟩
        all_goals exact List.cons_ne_nil _ _
    | integer hne hwhole => exact hne
    | keyword hentry => exact (letters_keyword hentry).1
    | identifier hne hletters hfree => exact hne
    | _ => simp [text]
  · cases hforeign <;> exact List.cons_ne_nil _ _

/-- Whatever else fits where a cut is made is shorter. -/
theorem reaches_of_fits {segment : Segment} {c : UInt8} {rest : Bytes}
    (h : Fits segment (c :: rest)) : Reaches (next c rest) segment := by
  obtain ⟨after, hafter⟩ := h.starts
  cases htext : segment.text with
  | nil => exact absurd htext (text_ne_nil h.formed)
  | cons b more =>
      rw [htext, List.cons_append] at hafter
      obtain ⟨rfl, rfl⟩ := List.cons.inj hafter
      rcases h.formed with hregular | hforeign
      · refine reaches_regular hregular htext ?_
        intro hopen
        have hall := h.closed hopen
        rw [htext, List.cons.injEq] at hall
        simpa using hall.2
      · exact reaches_foreign after hforeign htext

theorem longest_next (c : UInt8) (rest : Bytes) : Longest (next c rest).1 (c :: rest) := by
  refine ⟨fits_next c rest, ?_⟩
  intro other hother
  rcases reaches_of_fits hother with heq | hlt
  · rw [heq]
  · exact Nat.le_of_lt hlt

theorem eq_next_of_longest {segment : Segment} {c : UInt8} {rest : Bytes}
    (h : Longest segment (c :: rest)) : segment = (next c rest).1 := by
  have hle := h.greatest (next c rest).1 (fits_next c rest)
  rcases reaches_of_fits h.fits with heq | hlt
  · exact heq.symm
  · omega

/-! ## The tiling -/

theorem tiles_segments (source : Bytes) : Tiles source (segments source) := by
  match source with
  | [] =>
      rw [segments_nil]
      exact .nil
  | c :: rest =>
      rw [segments_cons]
      exact .cons (longest_next c rest) (whole_next c rest).symm
        (tiles_segments (next c rest).2)
  termination_by source.length
  decreasing_by
    have hlength := length_next_le c rest
    simp only [List.length_cons]
    omega

theorem Tiles.eq_segments {source : Bytes} {segments : List Segment}
    (h : Tiles source segments) : segments = Segment.segments source := by
  induction h with
  | nil => rw [segments_nil]
  | @cons source rest segment segments longest hsource tiles ih =>
      cases source with
      | nil =>
          have hempty := (List.append_eq_nil_iff.mp hsource.symm).1
          exact absurd hempty (text_ne_nil longest.fits.formed)
      | cons c after =>
          have hsegment := eq_next_of_longest longest
          have hwhole := whole_next c after
          rw [whole, hsource, hsegment, List.append_cancel_left_eq] at hwhole
          rw [segments_cons, hwhole, ← ih, hsegment]

/-- A source has exactly one tiling. -/
theorem tiles_iff (source : Bytes) (segments : List Segment) :
    Tiles source segments ↔ segments = Segment.segments source := by
  constructor
  · exact Tiles.eq_segments
  · rintro rfl
    exact tiles_segments source

end Scriptlet.Segment
