import Scriptlet.Proofs.Token.Lines

/-!
# Scanning across a stop

Some bytes continue no segment that stands before them: a newline does so, and
so does the first byte of any white space.  What stands before such a byte is
cut as if the source ended there, unless it is a comment or a string that goes
on (`segments_append_stop`).
-/

namespace Scriptlet

private theorem Utf8.first_append_stop (b : UInt8) (rest after : Bytes) {stop : UInt8}
    (hstop : isContinuation stop = false) :
    first b (rest ++ stop :: after) = first b rest := by
  have hsecond (lead : UInt8) : secondOk lead stop = false := by
    rw [← Bool.not_eq_true, isContinuation_iff] at hstop
    rw [← Bool.not_eq_true, secondOk_iff]
    exact fun h => hstop h.1
  unfold first
  match rest with
  | [] =>
      match after with
      | [] => simp [hstop]
      | [d] => simp [hstop, hsecond]
      | d :: e :: after => simp [hstop, hsecond]
  | [c] => cases after <;> simp [hstop]
  | [c, d] => simp [hstop]
  | c :: d :: e :: rest => rfl

namespace Segment

open Bytes (isDigit isLetter)

/-- A byte that no segment takes in, if it is not within a comment or a string. -/
structure Stops (stop : UInt8) : Prop where
  continuation : Utf8.isContinuation stop = false
  digit : isDigit stop = false
  letter : isLetter stop = false
  point : stop ≠ Decimal.point
  equals : stop ≠ equals
  slash : stop ≠ slash
  star : stop ≠ star

theorem stops_newline : Stops newline := by
  constructor <;> decide

theorem stops_space : Stops space := by
  constructor <;> decide

def isLineComment : Segment → Bool
  | comment (_ :: c :: _) => c == slash
  | _ => false

/-- Whether the segment ends in front of the byte, if that is a stop. -/
def endsBefore (stop : UInt8) (segment : Segment) : Bool :=
  !segment.isOpen && (stop == newline || !segment.isLineComment)

theorem endsBefore_newline (segment : Segment) :
    segment.endsBefore newline = !segment.isOpen := by
  simp [endsBefore]

/-! ## One segment -/

section Runs

variable {p : UInt8 → Bool} {stop : UInt8} (hstop : p stop = false) (s after : Bytes)
include hstop

theorem takeWhile_append_stop : (s ++ stop :: after).takeWhile p = s.takeWhile p := by
  induction s with
  | nil => simp [hstop]
  | cons b s ih => by_cases hb : p b = true <;> simp [hb, ih]

theorem dropWhile_append_stop :
    (s ++ stop :: after).dropWhile p = s.dropWhile p ++ stop :: after := by
  induction s with
  | nil => simp [hstop]
  | cons b s ih => by_cases hb : p b = true <;> simp [hb, ih]

end Runs

theorem afterSlash_slash (more : Bytes) :
    afterSlash (slash :: more) =
      (.comment (slash :: slash :: more.takeWhile (· != newline)),
        more.dropWhile (· != newline)) := rfl

theorem afterSlash_star (more : Bytes) :
    afterSlash (star :: more) =
      match closeComment [star, slash] more with
      | some (content, after) => (.comment content.reverse, after)
      | none => (.openComment (slash :: star :: more), []) := rfl

theorem afterSlash_plain {c : UInt8} (more : Bytes) (hslash : c ≠ slash) (hstar : c ≠ star) :
    afterSlash (c :: more) = (.lexeme .slash [slash], c :: more) := by
  simp [afterSlash, hslash, hstar]

private theorem afterQuote_append {rest : Bytes} (more : Bytes)
    (hclosed : (afterQuote rest).1.isOpen = false) :
    afterQuote (rest ++ more) = (afterQuote rest).map id (· ++ more) := by
  cases hdrop : rest.dropWhile (· != quote) with
  | nil =>
      rw [afterQuote, hdrop] at hclosed
      cases hclosed
  | cons q behind =>
      have hdrop' : (rest ++ more).dropWhile (· != quote) = q :: (behind ++ more) := by
        rw [List.dropWhile_append, hdrop]
        rfl
      have hrest := List.takeWhile_append_dropWhile (p := (· != quote)) (l := rest)
      have htake : (rest ++ more).takeWhile (· != quote) = rest.takeWhile (· != quote) := by
        rw [List.takeWhile_append, if_neg]
        intro hlength
        have hall := congrArg List.length hrest
        rw [List.length_append, hlength, hdrop] at hall
        simp at hall
      simp only [afterQuote, hdrop, hdrop', htake, Prod.map_apply, id]

section Stop

variable {stop : UInt8} (hstop : Stops stop)
include hstop

private theorem afterSlash_append_stop {rest : Bytes} (after : Bytes)
    (hends : (afterSlash rest).1.endsBefore stop = true) :
    afterSlash (rest ++ stop :: after) = (afterSlash rest).map id (· ++ stop :: after) := by
  cases rest with
  | nil => exact afterSlash_plain after hstop.slash hstop.star
  | cons c more =>
      rw [List.cons_append]
      by_cases hline : c = slash
      · have hnewline : stop = newline := by
          rw [hline, afterSlash_slash] at hends
          simpa [endsBefore, isOpen, isLineComment] using hends
        rw [hline, hnewline, afterSlash_slash, afterSlash_slash,
          takeWhile_append_stop (p := (· != newline)) rfl,
          dropWhile_append_stop (p := (· != newline)) rfl]
        rfl
      · by_cases hblock : c = star
        · rw [hblock, afterSlash_star] at hends
          rw [hblock, afterSlash_star, afterSlash_star]
          cases hclose : closeComment [star, slash] more with
          | none =>
              rw [hclose] at hends
              cases hends
          | some cut =>
              obtain ⟨content, behind⟩ := cut
              obtain ⟨body, rfl, rfl, hbody⟩ := closeComment_eq_some hclose
              rw [List.append_assoc, List.cons_append, List.cons_append,
                closeComment_append [star, slash] hbody]
              rfl
        · rw [afterSlash_plain _ hline hblock, afterSlash_plain _ hline hblock]
          rfl

private theorem number_append_stop (s after : Bytes) :
    number (s ++ stop :: after) = (number s).map id (· ++ stop :: after) := by
  have hpoint : (stop == Decimal.point) = false := beq_eq_false_iff_ne.mpr hstop.point
  simp only [number, takeWhile_append_stop hstop.digit, dropWhile_append_stop hstop.digit]
  rcases s.dropWhile isDigit with _ | ⟨p, _ | ⟨d, rest⟩⟩
  · cases after <;> simp [hpoint]
  · simp [hstop.digit]
  · by_cases h : (p == Decimal.point && isDigit d) = true
    · have hfraction := takeWhile_append_stop hstop.digit (d :: rest) after
      have hbehind := dropWhile_append_stop hstop.digit (d :: rest) after
      rw [List.cons_append] at hfraction hbehind
      simp only [List.cons_append, h, if_true, hfraction, hbehind, Prod.map_apply, id]
    · simp [h]

private theorem word_append_stop (s after : Bytes) :
    word (s ++ stop :: after) = (word s).map id (· ++ stop :: after) := by
  simp only [word, takeWhile_append_stop hstop.letter, dropWhile_append_stop hstop.letter,
    Prod.map_apply, id]

private theorem other_append_stop (c : UInt8) (rest after : Bytes) :
    other c (rest ++ stop :: after) = (other c rest).map id (· ++ stop :: after) := by
  obtain ⟨more, hbytes, behind, rfl⟩ := Utf8.bytes_first c rest
  simp only [other, Utf8.first_append_stop _ _ _ hstop.continuation, hbytes]
  simp

theorem next_append_stop {c : UInt8} {rest : Bytes} (after : Bytes)
    (hends : (next c rest).1.endsBefore stop = true) :
    next c (rest ++ stop :: after) = (next c rest).map id (· ++ stop :: after) := by
  cases hsingle : single? c with
  | some kind =>
      rw [next_of_single _ hsingle, next_of_single _ hsingle]
      rfl
  | none =>
      cases hpaired : paired? c with
      | some kinds =>
          simp only [next, hsingle, hpaired]
          cases rest with
          | nil => simp [hstop.equals]
          | cons d more => by_cases hd : d = equals <;> simp [hd]
      | none =>
          by_cases hslash : c = slash
          · rw [hslash, next_slash] at hends
            rw [hslash, next_slash, next_slash, afterSlash_append_stop hstop after hends]
          by_cases hquote : c = quote
          · have hclosed : (afterQuote rest).1.isOpen = false := by
              rw [hquote, next_quote] at hends
              simpa using (Bool.and_eq_true_iff.mp hends).1
            rw [hquote, next_quote, next_quote, afterQuote_append _ hclosed]
          cases hblank : isBlank c with
          | true =>
              rw [next_of_isBlank _ hblank, next_of_isBlank _ hblank]
              rfl
          | false =>
              cases hdigit : isDigit c with
              | true =>
                  rw [next_of_isDigit _ hdigit, next_of_isDigit _ hdigit,
                    ← List.cons_append, number_append_stop hstop]
              | false =>
                  cases hletter : isLetter c with
                  | true =>
                      rw [next_of_isLetter _ hletter, next_of_isLetter _ hletter,
                        ← List.cons_append, word_append_stop hstop]
                  | false =>
                      have hother : Unclassed c :=
                        ⟨hsingle, hpaired, hslash, hblank, hquote, hdigit, hletter⟩
                      rw [next_of_unclassed _ hother, next_of_unclassed _ hother,
                        other_append_stop hstop]

/-! ## All segments -/

theorem segments_append_stop {s : Bytes} (after : Bytes)
    (hends : ∀ segment ∈ segments s, segment.endsBefore stop = true) :
    segments (s ++ stop :: after) = segments s ++ segments (stop :: after) := by
  match s with
  | [] => rw [segments_nil, List.nil_append, List.nil_append]
  | c :: rest =>
      rw [segments_cons] at hends
      rw [List.cons_append, segments_cons c, segments_cons c,
        next_append_stop hstop after (hends _ List.mem_cons_self), Prod.map_fst, Prod.map_snd,
        segments_append_stop after
          (fun segment hsegment => hends segment (List.mem_cons_of_mem _ hsegment))]
      rfl
  termination_by s.length
  decreasing_by
    have hlength := length_next_le c rest
    simp only [List.length_cons]
    omega

end Stop

end Segment

end Scriptlet
