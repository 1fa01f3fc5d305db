import Scriptlet.Proofs.Token.Newline

/-!
# The two policies

A policy is consulted for the last segment of a source only, and only if nothing
closes that segment.  So the scans of a source under both policies differ in at
most one token in front of the end token and in at most one record at the end
(`ofSource_policies`).  All other records stand for the error tokens
(`records_eq_unexpected`).
-/

namespace Scriptlet

/-! ## Error tokens and their records -/

def Token.complaint (t : Token) : Record := ⟨.scan, t.line, [], utf8 "Unexpected character."⟩

def Scan.unexpected (s : Scan) : Diagnostics :=
  (s.tokens.filter fun t => t.kind == .error).map Token.complaint

/--
What only one of the policies gives for the end of a source, where `line` is its
last line: the token in front of the end token, and the last record.
-/
inductive Unclosed (source : Bytes) (line : Int) : List Token → Diagnostics → Prop
  | none (hclosed : ∀ segments, Segment.Tiles source segments →
      ∀ segment ∈ segments, segment.isOpen = false) : Unclosed source line [] []
  | comment {content : Bytes} {front : List Segment}
      (htiles : Segment.Tiles source (front ++ [.openComment content])) :
      Unclosed source line [] [⟨.scan, line, [], utf8 "Unterminated block comment."⟩]
  | string {before content : Bytes} {front : List Segment}
      (htiles : Segment.Tiles source (front ++ [.openString content]))
      (hsource : source = before ++ quote :: content) :
      Unclosed source line [⟨.string, quote :: content, line, .text content⟩]
        [⟨.scan, line, [], utf8 "Unterminated string."⟩]

namespace Segment

theorem segments_closed_or (source : Bytes) :
    (∀ segment ∈ segments source, segment.isOpen = false) ∨
      ∃ front last, segments source = front ++ [last] ∧ last.isOpen = true ∧
        ∀ segment ∈ front, segment.isOpen = false := by
  have hfront := (tiles_segments source).closed_dropLast
  rcases List.eq_nil_or_concat (segments source) with hnil | ⟨front, last, hconcat⟩
  · left
    simp [hnil]
  · rw [List.concat_eq_append] at hconcat
    rw [hconcat, List.dropLast_concat] at hfront
    cases hlast : last.isOpen with
    | true => exact .inr ⟨front, last, hconcat, hlast, hfront⟩
    | false =>
        left
        rw [hconcat, List.forall_mem_append, List.forall_mem_singleton]
        exact ⟨hfront, hlast⟩

theorem numbered_concat {source : Bytes} {front : List Segment} {last : Segment}
    (h : segments source = front ++ [last]) :
    numbered (segments source) = numberedFrom 1 front ++ [(lastLine source, last)] := by
  have htext := flatten_segments source
  rw [h, List.flatMap_append, List.flatMap_singleton] at htext
  have hcount := congrArg Bytes.countNewlines htext
  rw [Bytes.countNewlines_append] at hcount
  rw [numbered_eq, h, numberedFrom_append, numberedFrom, numberedFrom, lastLine, ← hcount,
    Nat.add_assoc]

/-- A segment has a record exactly if it is an error token, unless it is open. -/
theorem record?_eq {policy : Unterminated} {segment : Segment}
    (h : policy = .eof ∨ segment.isOpen = false) (line : Nat) :
    segment.record? policy line =
      ((segment.token? policy line).filter fun t => t.kind == .error).map Token.complaint := by
  cases segment with
  | lexeme kind content => cases kind <;> rfl
  | openString content =>
      obtain rfl : policy = .eof := h.resolve_right Bool.noConfusion
      rfl
  | openComment content =>
      obtain rfl : policy = .eof := h.resolve_right Bool.noConfusion
      rfl
  | _ => rfl

end Segment

namespace Scan

theorem records_eq_unexpected {policy : Unterminated} {source : Bytes}
    (h : policy = .eof ∨ ∀ segment ∈ Segment.segments source, segment.isOpen = false) :
    (ofSource policy source).records = (ofSource policy source).unexpected := by
  rw [unexpected, tokens_ofSource, List.filter_append, List.map_append, lexed,
    List.filter_filterMap, List.map_filterMap]
  refine Eq.trans (List.filterMap_congr ?_) (List.append_nil _).symm
  intro entry hentry
  refine Segment.record?_eq (h.imp_right fun hclosed => ?_) entry.1
  apply hclosed
  rw [← Segment.map_snd_numbered source]
  exact List.mem_map_of_mem hentry

/-! ## The end of a source -/

section Open

variable {source : Bytes} {front : List Segment} {last : Segment}
  (h : Segment.segments source = front ++ [last]) (hopen : last.isOpen = true)
  (hfront : ∀ segment ∈ front, segment.isOpen = false)
include h hopen hfront

private theorem lexed_of_open :
    lexed .eof source =
      lexed .error source ++ (last.token? .eof (lastLine source)).toList := by
  have hnone : last.token? .error (lastLine source) = none := by
    cases last <;> first | rfl | cases hopen
  rw [lexed, lexed, Segment.numbered_concat h, List.filterMap_append, List.filterMap_append,
    (Segment.filterMap_of_closed hfront .eof 1).1]
  cases htoken : last.token? .eof (lastLine source) <;> simp [hnone, htoken]

private theorem records_of_open :
    (ofSource .error source).records =
      (ofSource .eof source).records ++ (last.record? .error (lastLine source)).toList := by
  have hnone : last.record? .eof (lastLine source) = none := by
    cases last <;> first | rfl | cases hopen
  simp only [ofSource]
  rw [Segment.numbered_concat h, List.filterMap_append, List.filterMap_append,
    (Segment.filterMap_of_closed hfront .eof 1).2]
  cases hrecord : last.record? .error (lastLine source) <;> simp [hnone, hrecord]

omit hfront in
private theorem unclosed_of_open :
    Unclosed source (lastLine source) (last.token? .eof (lastLine source)).toList
      (last.record? .error (lastLine source)).toList := by
  have htiles := Segment.tiles_segments source
  have hsource := Segment.flatten_segments source
  rw [h] at htiles hsource
  rw [List.flatMap_append, List.flatMap_singleton] at hsource
  cases last with
  | openString content => exact .string htiles hsource.symm
  | openComment content => exact .comment htiles
  | _ => cases hopen

end Open

private theorem unexpected_of_unclosed {policy : Unterminated} {source : Bytes} {line : Int}
    {body extra : List Token} {unclosed : Diagnostics} (h : Unclosed source line extra unclosed)
    (htokens : (ofSource .error source).tokens = body ++ [stop source])
    (htokens' : (ofSource .eof source).tokens = body ++ extra ++ [stop source]) :
    (ofSource policy source).unexpected = (ofSource .eof source).unexpected := by
  cases policy with
  | eof => rfl
  | error =>
      rw [unexpected, unexpected, htokens, htokens']
      cases h <;> simp [stop]

/--
The policies differ in what they make of the end of a source: both give the same
tokens, but for a string in front of the end token, and the same records, but
for one at the end, on the last line.  The other records stand for the error
tokens.
-/
theorem ofSource_policies (source : Bytes) :
    ∃ (body extra : List Token) (stop : Token) (unclosed : Diagnostics),
      (ofSource .error source).tokens = body ++ [stop] ∧
      (ofSource .eof source).tokens = body ++ extra ++ [stop] ∧
      stop.kind = .eof ∧
      (ofSource .error source).records = (ofSource .eof source).records ++ unclosed ∧
      Unclosed source stop.line extra unclosed ∧
      ∀ policy, (ofSource .eof source).records = (ofSource policy source).unexpected := by
  have hrecords : (ofSource .eof source).records = (ofSource .eof source).unexpected :=
    records_eq_unexpected (.inl rfl)
  rcases Segment.segments_closed_or source with hclosed | ⟨front, last, h, hopen, hfront⟩
  · have hsame := ofSource_of_closed hclosed .eof
    refine ⟨lexed .error source, [], stop source, [], tokens_ofSource .error source, ?_, rfl, ?_,
      .none ?_, ?_⟩
    · rw [hsame, List.append_nil, tokens_ofSource]
    · rw [hsame, List.append_nil]
    · intro segments htiles
      rwa [htiles.eq_segments]
    · intro policy
      rw [hrecords, hsame, ofSource_of_closed hclosed policy]
  · have hunclosed := unclosed_of_open h hopen
    have herror := tokens_ofSource .error source
    have htokens := tokens_ofSource .eof source
    rw [lexed_of_open h hopen hfront] at htokens
    refine ⟨lexed .error source, _, stop source, _, herror, htokens, rfl,
      records_of_open h hopen hfront, hunclosed, ?_⟩
    intro policy
    exact hrecords.trans (unexpected_of_unclosed hunclosed herror htokens).symm

end Scan

end Scriptlet
