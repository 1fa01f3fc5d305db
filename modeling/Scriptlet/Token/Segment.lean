import Scriptlet.Token.Kind
import Scriptlet.Token.Basic
import Scriptlet.Decimal.Reader
import Scriptlet.Text.Utf8

/-!
# Lexical segments

A source text is cut into segments: white space, comments, lexemes, and at
the very end perhaps a string or a block comment that is never closed.  Each
segment is as long as its class allows, so the cut is unique, and no byte is
lost: the texts of the segments concatenate to the source
(`flatten_segments`).
-/

namespace Scriptlet

inductive Segment where
  | blank (byte : UInt8)
  /-- A line comment without its newline, or a closed block comment. -/
  | comment (content : Bytes)
  | lexeme (kind : Kind) (content : Bytes)
  /-- The rest of the source after an opening quote that nothing closes. -/
  | openString (content : Bytes)
  /-- The rest of the source from the start of a block comment without end. -/
  | openComment (content : Bytes)
  deriving DecidableEq, Repr

namespace Segment

def text : Segment → Bytes
  | blank byte => [byte]
  | comment content => content
  | lexeme _ content => content
  | openString content => quote :: content
  | openComment content => content

/-! ## Cutting off one segment -/

def slash : UInt8 := 0x2F

def star : UInt8 := 0x2A

def equals : UInt8 := 0x3D

def single? (c : UInt8) : Option Kind :=
  match Char.ofUInt8 c with
  | '(' => some .leftParen
  | ')' => some .rightParen
  | '\x7b' => some .leftBrace
  | '\x7d' => some .rightBrace
  | ',' => some .comma
  | '.' => some .dot
  | '-' => some .minus
  | '+' => some .plus
  | ';' => some .semicolon
  | '*' => some .star
  | _ => none

def paired? (c : UInt8) : Option (Kind × Kind) :=
  match Char.ofUInt8 c with
  | '!' => some (.bang, .bangEqual)
  | '=' => some (.equal, .equalEqual)
  | '<' => some (.less, .lessEqual)
  | '>' => some (.greater, .greaterEqual)
  | _ => none

def isBlank (c : UInt8) : Bool :=
  match Char.ofUInt8 c with
  | ' ' | '\r' | '\t' | '\n' => true
  | _ => false

/-- Splits behind the first `*/`; the first part is reversed and ends in `seen`. -/
def closeComment (seen : Bytes) : Bytes → Option (Bytes × Bytes)
  | [] => none
  | [_] => none
  | b :: c :: rest =>
    if b == star && c == slash then some (c :: b :: seen, rest)
    else closeComment (b :: seen) (c :: rest)

def afterSlash (rest : Bytes) : Segment × Bytes :=
  match rest with
  | [] => (.lexeme .slash [slash], [])
  | c :: more =>
    if c == slash then
      (.comment (slash :: c :: more.takeWhile (· != newline)),
        more.dropWhile (· != newline))
    else if c == star then
      match closeComment [c, slash] more with
      | some (content, after) => (.comment content.reverse, after)
      | none => (.openComment (slash :: c :: more), [])
    else (.lexeme .slash [slash], c :: more)

def afterQuote (rest : Bytes) : Segment × Bytes :=
  match rest.dropWhile (· != quote) with
  | [] => (.openString rest, [])
  | q :: after => (.lexeme .string (quote :: rest.takeWhile (· != quote) ++ [q]), after)

/-- A point belongs to a number only in front of a digit. -/
def number (s : Bytes) : Segment × Bytes :=
  let whole := s.takeWhile Bytes.isDigit
  match s.dropWhile Bytes.isDigit with
  | p :: d :: rest =>
    if p == Decimal.point && Bytes.isDigit d then
      (.lexeme .number (whole ++ p :: (d :: rest).takeWhile Bytes.isDigit),
        (d :: rest).dropWhile Bytes.isDigit)
    else (.lexeme .number whole, p :: d :: rest)
  | rest => (.lexeme .number whole, rest)

def word (s : Bytes) : Segment × Bytes :=
  let content := s.takeWhile Bytes.isLetter
  (.lexeme (Kind.ofWord content) content, s.dropWhile Bytes.isLetter)

/-- A character of no class is a lexeme of its own, and so is a stray byte. -/
def other (c : UInt8) (rest : Bytes) : Segment × Bytes :=
  let content := (Utf8.first c rest).bytes
  (.lexeme .error content, rest.drop (content.length - 1))

def next (c : UInt8) (rest : Bytes) : Segment × Bytes :=
  match single? c with
  | some kind => (.lexeme kind [c], rest)
  | none =>
    match paired? c with
    | some (alone, extended) =>
      match rest with
      | [] => (.lexeme alone [c], [])
      | d :: more =>
        if d == equals then (.lexeme extended [c, d], more)
        else (.lexeme alone [c], d :: more)
    | none =>
      if c == slash then afterSlash rest
      else if isBlank c then (.blank c, rest)
      else if c == quote then afterQuote rest
      else if Bytes.isDigit c then number (c :: rest)
      else if Bytes.isLetter c then word (c :: rest)
      else other c rest

/-! ## Nothing is lost -/

def whole (cut : Segment × Bytes) : Bytes := cut.1.text ++ cut.2

theorem closeComment_whole {s seen content after : Bytes}
    (h : closeComment seen s = some (content, after)) :
    content.reverse ++ after = seen.reverse ++ s := by
  induction s generalizing seen with
  | nil => simp [closeComment] at h
  | cons b s ih =>
    cases s with
    | nil => simp [closeComment] at h
    | cons c rest =>
      rw [closeComment] at h
      split at h
      · cases h
        simp
      · rw [ih h]
        simp

theorem closeComment_length {s seen content after : Bytes}
    (h : closeComment seen s = some (content, after)) :
    seen.length < content.length := by
  induction s generalizing seen with
  | nil => simp [closeComment] at h
  | cons b s ih =>
    cases s with
    | nil => simp [closeComment] at h
    | cons c rest =>
      rw [closeComment] at h
      split at h
      · cases h
        simp only [List.length_cons]
        omega
      · have := ih h
        simp only [List.length_cons] at this
        omega

theorem whole_afterSlash (rest : Bytes) : whole (afterSlash rest) = slash :: rest := by
  unfold afterSlash
  split
  · rfl
  · split
    · simp [whole, text]
    · split
      · split
        · rename_i h
          simpa [whole, text] using closeComment_whole h
        · simp [whole, text]
      · rfl

theorem whole_afterQuote (rest : Bytes) : whole (afterQuote rest) = quote :: rest := by
  unfold afterQuote
  split
  · simp [whole, text]
  · rename_i q after h
    have := List.takeWhile_append_dropWhile (p := (· != quote)) (l := rest)
    rw [h] at this
    simp [whole, text, this]

theorem whole_number (s : Bytes) : whole (number s) = s := by
  have joined := List.takeWhile_append_dropWhile (p := Bytes.isDigit) (l := s)
  unfold number
  dsimp only
  split
  · rename_i p d rest h
    rw [h] at joined
    split
    · have := List.takeWhile_append_dropWhile (p := Bytes.isDigit) (l := d :: rest)
      simp [whole, text, this, joined]
    · simp [whole, text, joined]
  · simp [whole, text]

theorem whole_word (s : Bytes) : whole (word s) = s := by
  simp [whole, word, text]

theorem whole_other (c : UInt8) (rest : Bytes) : whole (other c rest) = c :: rest := by
  obtain ⟨more, bytes, tail, rfl⟩ := Utf8.bytes_first c rest
  simp [whole, other, text, bytes]

theorem whole_next (c : UInt8) (rest : Bytes) : whole (next c rest) = c :: rest := by
  unfold next
  split
  · rfl
  · split
    · split
      · rfl
      · split <;> rfl
    · split
      · rename_i h
        rw [whole_afterSlash, eq_of_beq h]
      · split
        · rfl
        · split
          · rename_i h
            rw [whole_afterQuote, eq_of_beq h]
          · split
            · exact whole_number _
            · split
              · exact whole_word _
              · exact whole_other _ _

theorem text_next_ne_nil (c : UInt8) (rest : Bytes) : (next c rest).1.text ≠ [] := by
  unfold next
  split
  · simp [text]
  · split
    · split
      · simp [text]
      · split <;> simp [text]
    · split
      · unfold afterSlash
        split
        · simp [text]
        · split
          · simp [text]
          · split
            · split
              · rename_i h
                have := closeComment_length h
                intro empty
                simp [text] at empty
                simp [empty] at this
              · simp [text]
            · simp [text]
      · split
        · simp [text]
        · split
          · unfold afterQuote
            split <;> simp [text]
          · split
            · rename_i h
              unfold number
              dsimp only
              split
              · split <;> simp [text, h]
              · simp [text, h]
            · split
              · rename_i h
                simp [word, text, h]
              · obtain ⟨more, bytes, -⟩ := Utf8.bytes_first c rest
                simp [other, text, bytes]

theorem length_next_le (c : UInt8) (rest : Bytes) :
    (next c rest).2.length ≤ rest.length := by
  have total := congrArg List.length (whole_next c rest)
  have positive := List.length_pos_iff.2 (text_next_ne_nil c rest)
  simp [whole] at total
  omega

/-! ## All segments -/

def segmentsFrom (done : List Segment) (s : Bytes) : List Segment :=
  match s with
  | [] => done.reverse
  | c :: rest => segmentsFrom ((next c rest).1 :: done) (next c rest).2
  termination_by s.length
  decreasing_by
    have := length_next_le c rest
    simp
    omega

def segments (s : Bytes) : List Segment := segmentsFrom [] s

theorem segmentsFrom_eq (done : List Segment) (s : Bytes) :
    segmentsFrom done s = done.reverse ++ segments s := by
  match s with
  | [] => simp [segments, segmentsFrom]
  | c :: rest =>
    rw [segments, segmentsFrom, segmentsFrom, segmentsFrom_eq,
      segmentsFrom_eq [(next c rest).1]]
    simp
  termination_by s.length
  decreasing_by
    all_goals
      have := length_next_le c rest
      simp
      omega

theorem segments_nil : segments [] = [] := by simp [segments, segmentsFrom]

theorem segments_cons (c : UInt8) (rest : Bytes) :
    segments (c :: rest) = (next c rest).1 :: segments (next c rest).2 := by
  conv => lhs; rw [segments, segmentsFrom, segmentsFrom_eq]
  simp

/-- The texts of the segments concatenate to the source. -/
theorem flatten_segments (s : Bytes) : (segments s).flatMap text = s := by
  match s with
  | [] => simp [segments_nil]
  | c :: rest =>
    rw [segments_cons, List.flatMap_cons, flatten_segments]
    exact whole_next c rest
  termination_by s.length
  decreasing_by
    have := length_next_le c rest
    simp
    omega

end Segment

end Scriptlet
