import Scriptlet.Grapheme.Class
import Scriptlet.Text.Utf8

/-!
# Clusters

A text falls into clusters, each of which a reader takes for one character.
Whether there is a boundary before a character follows from its class and from
what is known of the characters before it.
-/

namespace Scriptlet.Grapheme

/-- What matters of the characters before a possible boundary. -/
inductive Before where
  | carriageReturn
  | control
  | prepend
  | leadingConsonant
  | vowel
  | trailingConsonant
  | pictograph
  | joinedPictograph
  | oddIndicators
  | evenIndicators
  | other
  deriving DecidableEq, Repr

def Before.next (before : Before) (c : Class) : Before :=
  match c with
  | .carriageReturn => .carriageReturn
  | .lineFeed | .control => .control
  | .prepend => .prepend
  | .leadingConsonant => .leadingConsonant
  | .vowel | .openSyllable => .vowel
  | .trailingConsonant | .closedSyllable => .trailingConsonant
  | .pictograph => .pictograph
  | .extend => if before == .pictograph then .pictograph else .other
  | .joiner => if before == .pictograph then .joinedPictograph else .other
  | .regionalIndicator => if before == .oddIndicators then .evenIndicators else .oddIndicators
  | .spacingMark | .other => .other

def Before.boundary (before : Before) (c : Class) : Bool :=
  match before, c with
  | .carriageReturn, .lineFeed => false
  | .carriageReturn, _ | .control, _ => true
  | _, .carriageReturn | _, .lineFeed | _, .control => true
  | _, .extend | _, .joiner | _, .spacingMark => false
  | .prepend, _ => false
  | .leadingConsonant, .leadingConsonant | .leadingConsonant, .vowel
  | .leadingConsonant, .openSyllable | .leadingConsonant, .closedSyllable => false
  | .vowel, .vowel | .vowel, .trailingConsonant => false
  | .trailingConsonant, .trailingConsonant => false
  | .joinedPictograph, .pictograph => false
  | .oddIndicators, .regionalIndicator => false
  | _, _ => true

def continuation (before : Before) (s : Bytes) : List Rune :=
  match s with
  | [] => []
  | b :: rest =>
    let rune := Utf8.first b rest
    let c := Class.of rune.code
    if before.boundary c then []
    else rune :: continuation (before.next c) (rest.drop (rune.bytes.length - 1))
  termination_by s.length
  decreasing_by
    simp only [List.length_drop, List.length_cons]
    omega

def firstCluster (b : UInt8) (rest : Bytes) : List Rune :=
  let rune := Utf8.first b rest
  let before := Before.other.next (Class.of rune.code)
  rune :: continuation before (rest.drop (rune.bytes.length - 1))

end Scriptlet.Grapheme
