import Scriptlet.Proofs.Token.Policies

/-!
# Lexemes delimit themselves

A segment is the longest that fits where it stands, so its text by itself is cut
into that segment (`segments_text`), and no lexeme takes in a space behind it.
Hence the lexemes of a source with single spaces between them are scanned into
the same tokens again (`ofSource_respaced`).
-/

namespace Scriptlet

def Token.content (t : Token) : Kind × Bytes × Payload := (t.kind, t.lexeme, t.payload)

/-- The lexemes of a scan but for the end token, with single spaces between them. -/
def Scan.respaced (s : Scan) : Bytes :=
  Bytes.join [space] ((s.tokens.filter fun t => t.kind != .eof).map Token.lexeme)

namespace Segment

/-! ## Cutting lexemes again -/

private theorem segments_text {segment : Segment} (h : Regular segment ∨ Foreign segment) :
    segments segment.text = [segment] := by
  have hlongest : Longest segment segment.text :=
    ⟨⟨h, List.prefix_rfl, fun _ => rfl⟩, fun other hother => hother.starts.length_le⟩
  have htiles := Tiles.cons hlongest (List.append_nil _).symm .nil
  exact htiles.eq_segments.symm

private theorem segments_join {parts : List Segment}
    (hformed : ∀ segment ∈ parts, Regular segment ∨ Foreign segment)
    (hends : ∀ segment ∈ parts.dropLast, segment.endsBefore space = true) :
    segments (Bytes.join [space] (parts.map text)) = parts.intersperse (.blank space) := by
  induction parts with
  | nil => exact segments_nil
  | cons first parts ih =>
      rw [List.forall_mem_cons] at hformed
      have hfirst := segments_text hformed.1
      cases parts with
      | nil => simpa [Bytes.join] using hfirst
      | cons second parts =>
          rw [List.dropLast_cons_of_ne_nil (List.cons_ne_nil _ _), List.forall_mem_cons] at hends
          have hstop : ∀ segment ∈ segments first.text, segment.endsBefore space = true := by
            rw [hfirst, List.forall_mem_singleton]
            exact hends.1
          have hlater := ih hformed.2 hends.2
          rw [List.map_cons, Bytes.join] at hlater
          rw [List.map_cons, List.map_cons, Bytes.join, List.intercalate_cons_cons,
            List.append_assoc, List.singleton_append, segments_append_stop stops_space _ hstop,
            hfirst, segments_cons, next_of_isBlank _ (by decide), hlater,
            List.intersperse_cons_cons]
          rfl

theorem filterMap_intersperse {α : Type} {f : Segment → Option α} {separator : Segment}
    (h : f separator = none) (parts : List Segment) :
    (parts.intersperse separator).filterMap f = parts.filterMap f := by
  induction parts with
  | nil => rfl
  | cons first parts ih =>
      cases parts with
      | nil => rfl
      | cons second parts =>
          rw [List.intersperse_cons_cons, List.filterMap_cons, List.filterMap_cons_none h, ih,
            ← List.filterMap_cons]

/-! ## The contents of tokens -/

def content? (policy : Unterminated) (segment : Segment) : Option (Kind × Bytes × Payload) :=
  (segment.token? policy 1).map Token.content

private theorem map_content_token? (policy : Unterminated) (line : Nat) (segment : Segment) :
    (segment.token? policy line).map Token.content = segment.content? policy := by
  cases segment with
  | openString content => cases policy <;> rfl
  | _ => rfl

def spoken (policy : Unterminated) (source : Bytes) : List Segment :=
  (segments source).filter fun segment => (segment.content? policy).isSome

private theorem filterMap_spoken (policy : Unterminated) (source : Bytes) :
    (spoken policy source).filterMap (content? policy) =
      (segments source).filterMap (content? policy) := by
  rw [spoken, List.filterMap_filter]
  apply List.filterMap_congr
  intro segment _
  cases segment.content? policy <;> rfl

private theorem map_text_spoken (policy : Unterminated) (source : Bytes) :
    (spoken policy source).map text =
      (segments source).filterMap fun segment =>
        (segment.content? policy).map fun content => content.2.1 := by
  rw [spoken, ← List.filterMap_eq_map, List.filterMap_filter]
  apply List.filterMap_congr
  intro segment _
  cases segment with
  | openString content => cases policy <;> rfl
  | _ => rfl

private theorem endsBefore_of_content? {policy : Unterminated} {segment : Segment}
    (hspoken : (segment.content? policy).isSome = true) (hclosed : segment.isOpen = false) :
    segment.endsBefore space = true := by
  cases segment with
  | lexeme kind content => rfl
  | openString content => cases hclosed
  | _ => cases hspoken

private theorem closed_of_mem_spoken {policy : Unterminated} {source : Bytes} :
    ∀ segment ∈ (spoken policy source).dropLast, segment.isOpen = false := by
  rcases segments_closed_or source with hclosed | ⟨front, last, h, -, hfront⟩
  · intro segment hsegment
    exact hclosed segment (List.mem_of_mem_filter (List.mem_of_mem_dropLast hsegment))
  · intro segment hsegment
    rw [spoken, h, List.filter_append] at hsegment
    apply hfront
    cases hlast : (last.content? policy).isSome with
    | true =>
        rw [List.filter_singleton, hlast, cond_true, List.dropLast_concat] at hsegment
        exact List.mem_of_mem_filter hsegment
    | false =>
        rw [List.filter_singleton, hlast, cond_false, List.append_nil] at hsegment
        exact List.mem_of_mem_filter (List.mem_of_mem_dropLast hsegment)

private theorem segments_spoken (policy : Unterminated) (source : Bytes) :
    segments (Bytes.join [space] ((spoken policy source).map text)) =
      (spoken policy source).intersperse (.blank space) := by
  apply segments_join
  · intro segment hsegment
    exact (tiles_segments source).formed segment (List.mem_of_mem_filter hsegment)
  · intro segment hsegment
    have hspoken := (List.mem_filter.mp (List.mem_of_mem_dropLast hsegment)).2
    exact endsBefore_of_content? hspoken (closed_of_mem_spoken segment hsegment)

private theorem closed_of_mem_intersperse {source : Bytes} :
    ∀ segment ∈ (spoken .error source).intersperse (.blank space), segment.isOpen = false := by
  have hnone : ((spoken .error source).intersperse (.blank space)).filter isOpen = [] := by
    rw [← List.filterMap_eq_filter, filterMap_intersperse rfl, List.filterMap_eq_filter,
      List.filter_eq_nil_iff]
    intro segment hsegment
    have hspoken := (List.mem_filter.mp hsegment).2
    cases segment with
    | lexeme kind content => exact Bool.false_ne_true
    | _ => cases hspoken
  intro segment hsegment
  simpa using List.filter_eq_nil_iff.mp hnone segment hsegment

end Segment

/-! ## Scanning again -/

namespace Scan

theorem map_content_lexed (policy : Unterminated) (source : Bytes) :
    (lexed policy source).map Token.content =
      (Segment.segments source).filterMap (Segment.content? policy) := by
  rw [lexed, List.map_filterMap, ← Segment.map_snd_numbered source,
    List.filterMap_map, Segment.map_snd_numbered]
  apply List.filterMap_congr
  rintro ⟨line, segment⟩ -
  exact Segment.map_content_token? policy line segment

theorem map_content_tokens (policy : Unterminated) (source : Bytes) :
    (ofSource policy source).tokens.map Token.content =
      (Segment.segments source).filterMap (Segment.content? policy) ++ [(.eof, [], .none)] := by
  rw [tokens_ofSource, List.map_append, map_content_lexed]
  rfl

private theorem respaced_ofSource (policy : Unterminated) (source : Bytes) :
    (ofSource policy source).respaced =
      Bytes.join [space] ((Segment.spoken policy source).map Segment.text) := by
  have hlexed : ∀ t ∈ lexed policy source, (t.kind != .eof) = true :=
    fun t ht => bne_iff_ne.mpr (valued_of_mem_lexed ht).2
  have hlexemes : (lexed policy source).map Token.lexeme =
      ((lexed policy source).map Token.content).map fun content => content.2.1 := by
    rw [List.map_map]
    rfl
  rw [respaced, tokens_ofSource, List.filter_append, List.filter_eq_self.mpr hlexed,
    show [stop source].filter (fun t => t.kind != .eof) = [] from rfl, List.append_nil,
    hlexemes, map_content_lexed, List.map_filterMap, Segment.map_text_spoken]

private theorem length_unexpected (s : Scan) :
    s.unexpected.length = (s.tokens.map Token.content).countP fun content =>
      content.1 == .error := by
  rw [unexpected, List.length_map, ← List.countP_eq_length_filter, List.countP_map]
  rfl

/--
The lexemes of a scan with single spaces between them are scanned into the same
tokens, but for the lines, and the problems found are the error tokens again.
-/
theorem ofSource_respaced (policy : Unterminated) (source : Bytes) :
    ∃ first again : Scan,
      first = ofSource policy source ∧ again = ofSource policy first.respaced ∧
      again.tokens.map Token.content = first.tokens.map Token.content ∧
      again.records = again.unexpected ∧
      again.records.length = first.tokens.countP fun t => t.kind == .error := by
  refine ⟨_, _, rfl, rfl, ?_⟩
  have hsegments := Segment.segments_spoken policy source
  rw [← respaced_ofSource] at hsegments
  have htokens : (ofSource policy (ofSource policy source).respaced).tokens.map Token.content =
      (ofSource policy source).tokens.map Token.content := by
    rw [map_content_tokens, map_content_tokens, hsegments, Segment.filterMap_intersperse rfl,
      Segment.filterMap_spoken]
  have hclosed : policy = .eof ∨ ∀ segment ∈
      Segment.segments (ofSource policy source).respaced, segment.isOpen = false := by
    cases policy with
    | eof => exact .inl rfl
    | error =>
        right
        rw [hsegments]
        exact Segment.closed_of_mem_intersperse
  have hrecords := records_eq_unexpected hclosed
  refine ⟨htokens, hrecords, ?_⟩
  rw [hrecords, length_unexpected, htokens, List.countP_map]
  rfl

end Scan

end Scriptlet
