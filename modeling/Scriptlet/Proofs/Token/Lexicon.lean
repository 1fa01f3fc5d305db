import Mathlib.Data.List.Infix
import Scriptlet.Token.Segment

/-!
# The lexical grammar

The classes of lexical segments, as texts and without regard to how a source
is cut:

* one blank byte;
* a line comment, which holds no newline;
* a block comment up to the first closing mark behind its opening;
* an operator of one or two characters;
* digits, or digits around a point;
* letters, which spell a reserved word or an identifier;
* a string between two quotes;
* a string or a block comment that nothing closes;
* a foreign character, or one byte, that begins none of these.

A source is tiled by segments when each is the longest that fits where it
stands.
-/

namespace Scriptlet.Segment

open Bytes (isDigit isLetter)

/-! ## Classes -/

def operators : List (Bytes × Kind) :=
  [(utf8 "(", .leftParen), (utf8 ")", .rightParen), (utf8 "\x7b", .leftBrace),
    (utf8 "\x7d", .rightBrace), (utf8 ",", .comma), (utf8 ".", .dot), (utf8 "-", .minus),
    (utf8 "+", .plus), (utf8 ";", .semicolon), (utf8 "*", .star), (utf8 "/", .slash),
    (utf8 "!", .bang), (utf8 "!=", .bangEqual), (utf8 "=", .equal),
    (utf8 "==", .equalEqual), (utf8 "<", .less), (utf8 "<=", .lessEqual),
    (utf8 ">", .greater), (utf8 ">=", .greaterEqual)]

/-- The classes with a shape of their own; all but the foreign characters. -/
inductive Regular : Segment → Prop
  | blank {byte : UInt8} (hbyte : byte ∈ utf8 " \r\t\n") : Regular (.blank byte)
  | line {body : Bytes} (hbody : newline ∉ body) :
      Regular (.comment (slash :: slash :: body))
  | block {body : Bytes} (hbody : ¬ [star, slash] <:+: body ++ [star]) :
      Regular (.comment (slash :: star :: body ++ [star, slash]))
  | operator {spelling : Bytes} {kind : Kind} (hentry : (spelling, kind) ∈ operators) :
      Regular (.lexeme kind spelling)
  | integer {whole : Bytes} (hne : whole ≠ []) (hwhole : ∀ b ∈ whole, isDigit b = true) :
      Regular (.lexeme .number whole)
  | decimal {whole fraction : Bytes} (hne : whole ≠ [])
      (hwhole : ∀ b ∈ whole, isDigit b = true) (hne' : fraction ≠ [])
      (hfraction : ∀ b ∈ fraction, isDigit b = true) :
      Regular (.lexeme .number (whole ++ Decimal.point :: fraction))
  | keyword {word : String} {kind : Kind} (hentry : (word, kind) ∈ Kind.keywords) :
      Regular (.lexeme kind (utf8 word))
  | identifier {content : Bytes} (hne : content ≠ [])
      (hletters : ∀ b ∈ content, isLetter b = true)
      (hfree : ∀ entry ∈ Kind.keywords, utf8 entry.1 ≠ content) :
      Regular (.lexeme .identifier content)
  | string {body : Bytes} (hbody : quote ∉ body) :
      Regular (.lexeme .string (quote :: body ++ [quote]))
  | openString {body : Bytes} (hbody : quote ∉ body) : Regular (.openString body)
  | openComment {body : Bytes} (hbody : ¬ [star, slash] <:+: body) :
      Regular (.openComment (slash :: star :: body))

def Opens (b : UInt8) : Prop :=
  ∃ segment more, Regular segment ∧ segment.text = b :: more

inductive Foreign : Segment → Prop
  | char {b : UInt8} {more : Bytes} (c : Char)
      (hencode : String.utf8EncodeChar c = b :: more) (hopens : ¬ Opens b) :
      Foreign (.lexeme .error (b :: more))
  | byte {b : UInt8} (hopens : ¬ Opens b) : Foreign (.lexeme .error [b])

/-! ## Tilings -/

/-- Whether nothing closes the segment, so that it takes the rest of the source. -/
def isOpen : Segment → Bool
  | openString _ | openComment _ => true
  | _ => false

structure Fits (segment : Segment) (source : Bytes) : Prop where
  formed : Regular segment ∨ Foreign segment
  starts : segment.text <+: source
  closed : segment.isOpen = true → segment.text = source

structure Longest (segment : Segment) (source : Bytes) : Prop where
  fits : Fits segment source
  greatest : ∀ other, Fits other source → other.text.length ≤ segment.text.length

inductive Tiles : Bytes → List Segment → Prop
  | nil : Tiles [] []
  | cons {source rest : Bytes} {segment : Segment} {segments : List Segment}
      (longest : Longest segment source) (hsource : source = segment.text ++ rest)
      (tiles : Tiles rest segments) : Tiles source (segment :: segments)

/-! ## Words -/

theorem ofWord_keyword {word : String} {kind : Kind}
    (hentry : (word, kind) ∈ Kind.keywords) : Kind.ofWord (utf8 word) = kind := by
  have hall : ∀ entry ∈ Kind.keywords, Kind.ofWord (utf8 entry.1) = entry.2 := by decide
  exact hall (word, kind) hentry

theorem ofWord_free {content : Bytes}
    (hfree : ∀ entry ∈ Kind.keywords, utf8 entry.1 ≠ content) :
    Kind.ofWord content = .identifier := by
  have hnone : (Kind.keywords.find? fun entry => utf8 entry.1 == content) = none := by
    rw [List.find?_eq_none]
    intro entry hentry
    simpa using hfree entry hentry
  rw [Kind.ofWord, hnone]

theorem letters_keyword {word : String} {kind : Kind}
    (hentry : (word, kind) ∈ Kind.keywords) :
    utf8 word ≠ [] ∧ ∀ b ∈ utf8 word, isLetter b = true := by
  have hall : ∀ entry ∈ Kind.keywords,
      utf8 entry.1 ≠ [] ∧ (utf8 entry.1).all isLetter = true := by decide +kernel
  obtain ⟨hne, hletters⟩ := hall (word, kind) hentry
  exact ⟨hne, List.all_eq_true.mp hletters⟩

theorem regular_letters {content : Bytes} (hne : content ≠ [])
    (hletters : ∀ b ∈ content, isLetter b = true) :
    Regular (.lexeme (Kind.ofWord content) content) := by
  by_cases hfree : ∀ entry ∈ Kind.keywords, utf8 entry.1 ≠ content
  · rw [ofWord_free hfree]
    exact .identifier hne hletters hfree
  · push Not at hfree
    obtain ⟨⟨word, kind⟩, hentry, rfl⟩ := hfree
    rw [ofWord_keyword hentry]
    exact .keyword hentry

end Scriptlet.Segment
