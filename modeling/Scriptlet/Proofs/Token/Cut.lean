import Mathlib.Data.List.TakeWhile
import Scriptlet.Proofs.Token.Lexicon
import Scriptlet.Proofs.Text.Encoding

/-!
# What is cut off has a class

`next` decides by the first byte.  The bytes for which it has no branch of
their own are exactly those that open no regular segment, so what it cuts off
always fits the lexical grammar (`fits_next`).
-/

namespace Scriptlet.Segment

open Bytes (isDigit isLetter)

/-! ## Block comments -/

theorem closeComment_append (seen : Bytes) {body after : Bytes}
    (hbody : ¬ [star, slash] <:+: body ++ [star]) :
    closeComment seen (body ++ star :: slash :: after) =
      some (slash :: star :: (body.reverse ++ seen), after) := by
  induction body generalizing seen with
  | nil => simp [closeComment]
  | cons b body ih =>
      rw [List.cons_append, List.infix_cons_iff, not_or] at hbody
      obtain ⟨hfirst, hlater⟩ := hbody
      have htail := ih (b :: seen) hlater
      cases body with
      | nil =>
          rw [List.nil_append] at htail
          rw [List.singleton_append, closeComment, if_neg (by simp [star, slash]), htail]
          simp
      | cons c body =>
          rw [List.cons_append] at htail
          rw [List.cons_append, List.cons_append, closeComment, if_neg, htail]
          · simp
          · intro hclose
            rw [Bool.and_eq_true, beq_iff_eq, beq_iff_eq] at hclose
            apply hfirst
            rw [hclose.1, hclose.2]
            exact ⟨body ++ [star], rfl⟩

theorem closeComment_eq_some {s seen content after : Bytes}
    (h : closeComment seen s = some (content, after)) :
    ∃ body, s = body ++ star :: slash :: after ∧
      content = slash :: star :: (body.reverse ++ seen) ∧
      ¬ [star, slash] <:+: body ++ [star] := by
  induction s generalizing seen with
  | nil => simp [closeComment] at h
  | cons b s ih =>
      cases s with
      | nil => simp [closeComment] at h
      | cons c rest =>
          rw [closeComment] at h
          split at h
          · rename_i hclose
            rw [Bool.and_eq_true, beq_iff_eq, beq_iff_eq] at hclose
            obtain ⟨rfl, rfl⟩ := hclose
            cases h
            exact ⟨[], rfl, rfl, by decide⟩
          · rename_i hclose
            obtain ⟨body, hs, rfl, hbody⟩ := ih h
            refine ⟨b :: body, by rw [hs, List.cons_append], by simp, ?_⟩
            rw [List.cons_append, List.infix_cons_iff, not_or]
            refine ⟨?_, hbody⟩
            intro hprefix
            rw [List.cons_prefix_cons] at hprefix
            apply hclose
            -- the byte behind `b` is the first of `body`, or the star of the closing mark
            cases body with
            | nil => exact absurd hprefix.2 (by decide)
            | cons d body =>
                rw [List.cons_append, List.cons_prefix_cons] at hprefix
                rw [List.cons_append] at hs
                have hd : c = d := (List.cons.inj hs).1
                rw [← hprefix.1, hd, ← hprefix.2.1]
                rfl

theorem not_infix_of_closeComment {s seen : Bytes} (h : closeComment seen s = none) :
    ¬ [star, slash] <:+: s := by
  induction s generalizing seen with
  | nil => simp
  | cons b s ih =>
      rw [List.infix_cons_iff, not_or]
      cases s with
      | nil => simp
      | cons c rest =>
          rw [closeComment] at h
          split at h
          · cases h
          · rename_i hclose
            refine ⟨?_, ih h⟩
            intro hprefix
            rw [List.cons_prefix_cons, List.cons_prefix_cons] at hprefix
            apply hclose
            rw [← hprefix.1, ← hprefix.2.1]
            rfl

theorem closeComment_eq_none {s seen : Bytes} (hfree : ¬ [star, slash] <:+: s) :
    closeComment seen s = none := by
  cases hclose : closeComment seen s with
  | none => rfl
  | some cut =>
      obtain ⟨body, rfl, -, -⟩ := closeComment_eq_some hclose
      exact absurd ⟨body, cut.2, by simp⟩ hfree

/-! ## Classes of the first byte -/

theorem eq_of_ofUInt8 {c : UInt8} {d : Char} (h : Char.ofUInt8 c = d) :
    c = d.toUInt8 := by
  subst h
  change c = c.toUInt32.toUInt8
  rw [UInt8.toUInt8_toUInt32]

theorem forall_byte {P : UInt8 → Prop} (h : ∀ n : Fin 256, P (UInt8.ofFin n))
    (c : UInt8) : P c :=
  h c.toFin

private theorem operator_of_single {c : UInt8} {kind : Kind} (h : single? c = some kind) :
    ([c], kind) ∈ operators := by
  unfold single? at h
  split at h
  all_goals
    rename_i hc
    cases h
    all_goals
      rw [eq_of_ofUInt8 hc]
      decide

private theorem operator_of_paired {c : UInt8} {alone extended : Kind}
    (h : paired? c = some (alone, extended)) :
    ([c], alone) ∈ operators ∧ ([c, equals], extended) ∈ operators := by
  unfold paired? at h
  split at h
  all_goals
    rename_i hc
    cases h
    all_goals
      rw [eq_of_ofUInt8 hc]
      decide

theorem operators_cases {spelling : Bytes} {kind : Kind}
    (h : (spelling, kind) ∈ operators) :
    (∃ c, spelling = [c] ∧ single? c = some kind) ∨
      (∃ c alone extended, paired? c = some (alone, extended) ∧
        (spelling = [c] ∧ kind = alone ∨ spelling = [c, equals] ∧ kind = extended)) ∨
      spelling = [slash] ∧ kind = .slash := by
  simp only [operators, List.mem_cons, Prod.mk.injEq, List.not_mem_nil, or_false] at h
  casesm* _ ∨ _
  all_goals
    obtain ⟨rfl, rfl⟩ := h
    first
    | exact .inl ⟨_, rfl, rfl⟩
    | exact .inr (.inl ⟨_, _, _, rfl, .inl ⟨rfl, rfl⟩⟩)
    | exact .inr (.inl ⟨_, _, _, rfl, .inr ⟨rfl, rfl⟩⟩)
    | exact .inr (.inr ⟨rfl, rfl⟩)

theorem mem_blanks_iff (c : UInt8) : c ∈ utf8 " \r\t\n" ↔ isBlank c = true := by
  revert c
  exact forall_byte (by decide +kernel)

/-- The bytes for which `next` has no branch of their own. -/
structure Unclassed (c : UInt8) : Prop where
  single : single? c = none
  paired : paired? c = none
  slash : c ≠ slash
  blank : isBlank c = false
  quote : c ≠ quote
  digit : isDigit c = false
  letter : isLetter c = false

namespace Unclassed

variable {c : UInt8} (hc : Unclassed c)
include hc

theorem not_mem_of_digits {s : Bytes} (hs : ∀ b ∈ s, isDigit b = true) : c ∉ s := by
  intro hmem
  have hdigit := hs c hmem
  rw [hc.digit] at hdigit
  cases hdigit

theorem not_mem_of_letters {s : Bytes} (hs : ∀ b ∈ s, isLetter b = true) : c ∉ s := by
  intro hmem
  have hletter := hs c hmem
  rw [hc.letter] at hletter
  cases hletter

private theorem not_mem_operators {more : Bytes} {kind : Kind} :
    (c :: more, kind) ∉ operators := by
  intro hentry
  rcases operators_cases hentry with ⟨d, hd, hsingle⟩ |
    ⟨d, alone, extended, hpaired, ⟨hd, -⟩ | ⟨hd, -⟩⟩ | ⟨hd, -⟩
  · cases hd
    rw [hc.single] at hsingle
    cases hsingle
  · cases hd
    rw [hc.paired] at hpaired
    cases hpaired
  · cases hd
    rw [hc.paired] at hpaired
    cases hpaired
  · exact hc.slash (List.cons.inj hd).1

private theorem not_opens : ¬ Opens c := by
  rintro ⟨segment, more, hregular, htext⟩
  have hmem : c ∈ segment.text := by
    rw [htext]
    exact List.mem_cons_self
  cases hregular with
  | blank hbyte =>
      cases htext
      rw [mem_blanks_iff, hc.blank] at hbyte
      cases hbyte
  | line hbody =>
      cases htext
      exact hc.slash rfl
  | block hbody =>
      cases htext
      exact hc.slash rfl
  | operator hentry =>
      cases htext
      exact hc.not_mem_operators hentry
  | integer hne hwhole => exact hc.not_mem_of_digits hwhole hmem
  | @decimal whole fraction hne hwhole hne' hfraction =>
      cases whole with
      | nil => exact hne rfl
      | cons d whole =>
          cases htext
          exact hc.not_mem_of_digits hwhole List.mem_cons_self
  | keyword hentry => exact hc.not_mem_of_letters (letters_keyword hentry).2 hmem
  | identifier hne hletters hfree => exact hc.not_mem_of_letters hletters hmem
  | string hbody =>
      cases htext
      exact hc.quote rfl
  | openString hbody =>
      cases htext
      exact hc.quote rfl
  | openComment hbody =>
      cases htext
      exact hc.slash rfl

end Unclassed

/-! ## The branches of a cut -/

theorem next_of_single {c : UInt8} {kind : Kind} (rest : Bytes)
    (h : single? c = some kind) : next c rest = (.lexeme kind [c], rest) := by
  simp only [next, h]

theorem single_of_paired {c : UInt8} {kinds : Kind × Kind} (h : paired? c = some kinds) :
    single? c = none := by
  have hall : ∀ c, (paired? c).isSome = true → single? c = none :=
    forall_byte (by decide +kernel)
  exact hall c (by rw [h]; rfl)

theorem next_slash (rest : Bytes) : next slash rest = afterSlash rest := rfl

theorem next_quote (rest : Bytes) : next quote rest = afterQuote rest := rfl

theorem next_of_isBlank {c : UInt8} (rest : Bytes) (h : isBlank c = true) :
    next c rest = (.blank c, rest) := by
  have hothers : ∀ c, isBlank c = true →
      single? c = none ∧ paired? c = none ∧ (c == slash) = false :=
    forall_byte (by decide +kernel)
  obtain ⟨hsingle, hpaired, hslash⟩ := hothers c h
  simp only [next, hsingle, hpaired, hslash, h, if_true, Bool.false_eq_true, if_false]

theorem next_of_isDigit {c : UInt8} (rest : Bytes) (h : isDigit c = true) :
    next c rest = number (c :: rest) := by
  have hothers : ∀ c, isDigit c = true → single? c = none ∧ paired? c = none ∧
      (c == slash) = false ∧ isBlank c = false ∧ (c == quote) = false :=
    forall_byte (by decide +kernel)
  obtain ⟨hsingle, hpaired, hslash, hblank, hquote⟩ := hothers c h
  simp only [next, hsingle, hpaired, hslash, hblank, hquote, h, if_true,
    Bool.false_eq_true, if_false]

theorem next_of_isLetter {c : UInt8} (rest : Bytes) (h : isLetter c = true) :
    next c rest = word (c :: rest) := by
  have hothers : ∀ c, isLetter c = true → single? c = none ∧ paired? c = none ∧
      (c == slash) = false ∧ isBlank c = false ∧ (c == quote) = false ∧
      isDigit c = false :=
    forall_byte (by decide +kernel)
  obtain ⟨hsingle, hpaired, hslash, hblank, hquote, hdigit⟩ := hothers c h
  simp only [next, hsingle, hpaired, hslash, hblank, hquote, hdigit, h, if_true,
    Bool.false_eq_true, if_false]

theorem next_of_unclassed {c : UInt8} (rest : Bytes) (h : Unclassed c) :
    next c rest = other c rest := by
  simp only [next, h.single, h.paired, beq_eq_false_iff_ne.mpr h.slash, h.blank,
    beq_eq_false_iff_ne.mpr h.quote, h.digit, h.letter, Bool.false_eq_true, if_false]

/-! ## What is cut off has a class -/

/-- A regular segment; only one that nothing closes takes everything. -/
structure Proper (cut : Segment × Bytes) : Prop where
  regular : Regular cut.1
  exhausted : cut.1.isOpen = true → cut.2 = []

theorem Proper.of_closed {segment : Segment} (rest : Bytes) (hregular : Regular segment)
    (hclosed : segment.isOpen = false) : Proper (segment, rest) := by
  refine ⟨hregular, ?_⟩
  intro hopen
  rw [hclosed] at hopen
  cases hopen

theorem bne_of_not_mem {b : UInt8} {s : Bytes} (h : b ∉ s) :
    ∀ d ∈ s, (d != b) = true := by
  intro d hd
  rw [bne_iff_ne]
  rintro rfl
  exact h hd

theorem not_mem_takeWhile {b : UInt8} (s : Bytes) : b ∉ s.takeWhile (· != b) := by
  intro hmem
  simpa using List.mem_takeWhile_imp hmem

private theorem proper_afterSlash (rest : Bytes) : Proper (afterSlash rest) := by
  unfold afterSlash
  split
  · exact .of_closed _ (.operator (by decide)) rfl
  · rename_i c more
    split
    · rename_i hc
      rw [eq_of_beq hc]
      exact .of_closed _ (.line (not_mem_takeWhile more)) rfl
    · split
      · rename_i hc
        rw [eq_of_beq hc]
        split
        · rename_i content after hclose
          obtain ⟨body, -, rfl, hbody⟩ := closeComment_eq_some hclose
          have hregular := Regular.block hbody
          exact .of_closed _ (by simpa using hregular) rfl
        · rename_i hclose
          exact ⟨.openComment (not_infix_of_closeComment hclose), fun _ => rfl⟩
      · exact .of_closed _ (.operator (by decide)) rfl

private theorem proper_afterQuote (rest : Bytes) : Proper (afterQuote rest) := by
  unfold afterQuote
  split
  · rename_i hdrop
    refine ⟨.openString ?_, fun _ => rfl⟩
    intro hmem
    simpa using List.dropWhile_eq_nil_iff.mp hdrop quote hmem
  · rename_i q after hdrop
    have hq : q = quote := by
      have hnonempty : rest.dropWhile (· != quote) ≠ [] := by simp [hdrop]
      have hhead := List.head_dropWhile_not (· != quote) hnonempty
      simpa [hdrop] using hhead
    rw [hq]
    exact .of_closed _ (.string (not_mem_takeWhile rest)) rfl

private theorem proper_number {c : UInt8} (rest : Bytes) (h : isDigit c = true) :
    Proper (number (c :: rest)) := by
  have hne : (c :: rest).takeWhile isDigit ≠ [] := by simp [h]
  have hwhole : ∀ b ∈ (c :: rest).takeWhile isDigit, isDigit b = true :=
    fun b => List.mem_takeWhile_imp
  unfold number
  dsimp only
  split
  · rename_i p d more hdrop
    split
    · rename_i hpoint
      rw [Bool.and_eq_true, beq_iff_eq] at hpoint
      rw [hpoint.1]
      refine .of_closed _ (.decimal hne hwhole ?_ ?_) rfl
      · simp [hpoint.2]
      · exact fun b => List.mem_takeWhile_imp
    · exact .of_closed _ (.integer hne hwhole) rfl
  · exact .of_closed _ (.integer hne hwhole) rfl

private theorem proper_word {c : UInt8} (rest : Bytes) (h : isLetter c = true) :
    Proper (word (c :: rest)) := by
  refine .of_closed _ (regular_letters ?_ ?_) rfl
  · simp [h]
  · exact fun b => List.mem_takeWhile_imp

private theorem proper_paired {c : UInt8} {alone extended : Kind} (rest : Bytes)
    (hpaired : paired? c = some (alone, extended)) : Proper (next c rest) := by
  obtain ⟨halone, hextended⟩ := operator_of_paired hpaired
  simp only [next, single_of_paired hpaired, hpaired]
  split
  · exact .of_closed _ (.operator halone) rfl
  · split
    · rename_i d more hd
      rw [eq_of_beq hd]
      exact .of_closed _ (.operator hextended) rfl
    · exact .of_closed _ (.operator halone) rfl

theorem proper_or_unclassed (c : UInt8) (rest : Bytes) :
    Proper (next c rest) ∨ Unclassed c := by
  cases hsingle : single? c with
  | some kind =>
      rw [next_of_single rest hsingle]
      exact .inl (.of_closed _ (.operator (operator_of_single hsingle)) rfl)
  | none =>
      cases hpaired : paired? c with
      | some kinds => exact .inl (proper_paired rest hpaired)
      | none =>
          by_cases hslash : c = slash
          · rw [hslash, next_slash]
            exact .inl (proper_afterSlash rest)
          by_cases hquote : c = quote
          · rw [hquote, next_quote]
            exact .inl (proper_afterQuote rest)
          cases hblank : isBlank c with
          | true =>
              rw [next_of_isBlank rest hblank]
              exact .inl (.of_closed _ (.blank ((mem_blanks_iff c).mpr hblank)) rfl)
          | false =>
              cases hdigit : isDigit c with
              | true =>
                  rw [next_of_isDigit rest hdigit]
                  exact .inl (proper_number rest hdigit)
              | false =>
                  cases hletter : isLetter c with
                  | true =>
                      rw [next_of_isLetter rest hletter]
                      exact .inl (proper_word rest hletter)
                  | false =>
                      exact .inr ⟨hsingle, hpaired, hslash, hblank, hquote, hdigit,
                        hletter⟩

theorem unclassed_of_not_opens {c : UInt8} (h : ¬ Opens c) : Unclassed c := by
  rcases proper_or_unclassed c [] with hproper | hunclassed
  · have hwhole := whole_next c []
    cases htext : (next c []).1.text with
    | nil => exact absurd htext (text_next_ne_nil c [])
    | cons b more =>
        rw [whole, htext, List.cons_append] at hwhole
        rw [(List.cons.inj hwhole).1] at htext
        exact absurd ⟨_, more, hproper.regular, htext⟩ h
  · exact hunclassed

private theorem foreign_other {c : UInt8} (rest : Bytes) (h : ¬ Opens c) :
    Foreign (other c rest).1 := by
  obtain ⟨more, hbytes, -⟩ := Utf8.bytes_first c rest
  cases hfirst : Utf8.first c rest with
  | stray byte =>
      rw [hfirst] at hbytes
      cases hbytes
      simp only [other, hfirst, Rune.bytes]
      exact .byte h
  | char code encoded =>
      obtain ⟨char, hchar⟩ := Utf8.exists_char_of_first hfirst
      rw [hfirst] at hbytes
      simp only [Rune.bytes] at hbytes
      rw [hbytes] at hchar
      simp only [other, hfirst, Rune.bytes, hbytes]
      exact .char char hchar.symm h

theorem fits_next (c : UInt8) (rest : Bytes) : Fits (next c rest).1 (c :: rest) := by
  have hwhole := whole_next c rest
  rw [whole] at hwhole
  have hstarts : (next c rest).1.text <+: c :: rest := ⟨(next c rest).2, hwhole⟩
  rcases proper_or_unclassed c rest with hproper | hunclassed
  · refine ⟨.inl hproper.regular, hstarts, ?_⟩
    intro hopen
    rw [hproper.exhausted hopen, List.append_nil] at hwhole
    exact hwhole
  · refine ⟨.inr ?_, hstarts, ?_⟩
    · rw [next_of_unclassed rest hunclassed]
      exact foreign_other rest hunclassed.not_opens
    · intro hopen
      rw [next_of_unclassed rest hunclassed] at hopen
      cases hopen

end Scriptlet.Segment
