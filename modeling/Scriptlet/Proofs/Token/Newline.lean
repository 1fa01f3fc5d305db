import Scriptlet.Proofs.Token.Stop

/-!
# Scanning across a newline

A newline ends every segment that does not need a closing mark, and a closed
segment does not look behind its mark.  So a source without open segments is
scanned alike whatever follows behind a newline, and what follows is scanned as
by itself, only further down (`lexed_append_newline`).  Whether there are open
segments can be seen from the problems of a scan (`ofSource_append_newline`).
-/

namespace Scriptlet

def Record.IsUnclosed (r : Record) : Prop :=
  r.message = utf8 "Unterminated string." ∨ r.message = utf8 "Unterminated block comment."

namespace Segment

/-! ## Segments -/

private theorem segments_append_newline {s : Bytes} (after : Bytes)
    (hclosed : ∀ segment ∈ segments s, segment.isOpen = false) :
    segments (s ++ newline :: after) =
      segments s ++ .blank newline :: segments after := by
  have hends : ∀ segment ∈ segments s, segment.endsBefore newline = true := by
    intro segment hsegment
    rw [endsBefore_newline, hclosed segment hsegment]
    rfl
  rw [segments_append_stop stops_newline after hends, segments_cons,
    next_of_isBlank after (by decide)]

theorem numbered_append_newline {s : Bytes} (after : Bytes)
    (hclosed : ∀ segment ∈ segments s, segment.isOpen = false) :
    numbered (segments (s ++ newline :: after)) =
      numbered (segments s) ++
        (1 + (Bytes.countNewlines s + 1), .blank newline) ::
          (numbered (segments after)).map
            (Prod.map (· + (Bytes.countNewlines s + 1)) id) := by
  rw [numbered_eq, numbered_eq, numbered_eq, segments_append_newline after hclosed,
    numberedFrom_append, flatten_segments, numberedFrom, ← numberedFrom_add]
  rfl

/-! ## Closed segments -/

private theorem isUnclosed_of_isOpen {segment : Segment} (h : segment.isOpen = true) (line : Nat) :
    ∃ r, segment.record? .error line = some r ∧ r.IsUnclosed := by
  cases segment with
  | openString content => exact ⟨_, rfl, .inl rfl⟩
  | openComment content => exact ⟨_, rfl, .inr rfl⟩
  | _ => cases h

theorem token?_of_closed {segment : Segment} (h : segment.isOpen = false)
    (policy : Unterminated) (line : Nat) :
    segment.token? policy line = segment.token? .error line ∧
      segment.record? policy line = segment.record? .error line := by
  cases segment with
  | openString content => cases h
  | openComment content => cases h
  | lexeme kind content => exact ⟨rfl, by cases kind <;> rfl⟩
  | _ => exact ⟨rfl, rfl⟩

theorem filterMap_of_closed {segments : List Segment}
    (h : ∀ segment ∈ segments, segment.isOpen = false) (policy : Unterminated) (line : Nat) :
    (numberedFrom line segments).filterMap (fun (line, s) => s.token? policy line) =
        (numberedFrom line segments).filterMap (fun (line, s) => s.token? .error line) ∧
      (numberedFrom line segments).filterMap (fun (line, s) => s.record? policy line) =
        (numberedFrom line segments).filterMap (fun (line, s) => s.record? .error line) := by
  have hnumbered : ∀ entry ∈ numberedFrom line segments, entry.2.isOpen = false := by
    intro entry hentry
    apply h
    rw [← map_snd_numberedFrom line segments]
    exact List.mem_map_of_mem hentry
  refine ⟨List.filterMap_congr ?_, List.filterMap_congr ?_⟩
  · exact fun entry hentry => (token?_of_closed (hnumbered entry hentry) policy _).1
  · exact fun entry hentry => (token?_of_closed (hnumbered entry hentry) policy _).2

end Segment

namespace Scan

theorem closed_of_records {source : Bytes}
    (h : ∀ r ∈ (ofSource .error source).records, ¬ r.IsUnclosed) :
    ∀ segment ∈ Segment.segments source, segment.isOpen = false := by
  intro segment hsegment
  rw [← Segment.map_snd_numbered source] at hsegment
  obtain ⟨⟨line, segment⟩, hmem, rfl⟩ := List.mem_map.mp hsegment
  rw [← Bool.not_eq_true]
  intro hopen
  obtain ⟨r, hr, hunclosed⟩ := Segment.isUnclosed_of_isOpen hopen line
  exact h r (List.mem_filterMap.mpr ⟨(line, segment), hmem, hr⟩) hunclosed

theorem ofSource_of_closed {source : Bytes}
    (hclosed : ∀ segment ∈ Segment.segments source, segment.isOpen = false)
    (policy : Unterminated) : ofSource policy source = ofSource .error source := by
  obtain ⟨htokens, hrecords⟩ := Segment.filterMap_of_closed hclosed policy 1
  simp only [ofSource, Segment.numbered_eq, htokens, hrecords]

/-! ## Tokens and records -/

private theorem stop_append_newline (source after : Bytes) :
    stop (source ++ newline :: after) =
      (stop after).shifted (Bytes.countNewlines source + 1) := by
  have hcount : Bytes.countNewlines (source ++ newline :: after) =
      Bytes.countNewlines source + (Bytes.countNewlines after + 1) := by
    rw [Bytes.countNewlines_append]
    exact congrArg _ List.count_cons_self
  simp only [stop, Token.shifted, lastLine, hcount, Token.mk.injEq, true_and, and_true]
  omega

section Append

variable (policy : Unterminated) {s : Bytes} (after : Bytes)
  (hclosed : ∀ segment ∈ Segment.segments s, segment.isOpen = false)
include hclosed

theorem lexed_append_newline :
    lexed policy (s ++ newline :: after) =
      lexed policy s ++
        (lexed policy after).map (Token.shifted (Bytes.countNewlines s + 1)) := by
  rw [lexed, Segment.numbered_append_newline after hclosed, List.filterMap_append,
    List.filterMap_cons_none rfl, List.filterMap_map, lexed, lexed, List.map_filterMap]
  congr 2
  funext entry
  exact Segment.token?_add policy entry.1 _ entry.2

theorem records_append_newline :
    (ofSource policy (s ++ newline :: after)).records =
      (ofSource policy s).records ++
        (ofSource policy after).records.map (Record.shifted (Bytes.countNewlines s + 1)) := by
  simp only [ofSource]
  rw [Segment.numbered_append_newline after hclosed, List.filterMap_append,
    List.filterMap_cons_none rfl, List.filterMap_map, List.map_filterMap]
  congr 2
  funext entry
  exact Segment.record?_add policy entry.1 _ entry.2

end Append

/--
A source in which every string and block comment is closed is scanned alike
under both policies, and so it is in front of a newline and any other source:
its tokens but for the end token, and its problems, are followed by those of the
other source, whose lines are counted on.
-/
theorem ofSource_append_newline (policy : Unterminated) {source : Bytes} (after : Bytes)
    (h : ∀ r ∈ (ofSource .error source).records, ¬ r.IsUnclosed) :
    ∃ n, n = Bytes.countNewlines source + 1 ∧
      ofSource policy source = ofSource .error source ∧
      (ofSource policy (source ++ newline :: after)).tokens =
        (ofSource .error source).tokens.dropLast ++
          (ofSource policy after).tokens.map (Token.shifted n) ∧
      (ofSource policy (source ++ newline :: after)).records =
        (ofSource .error source).records ++
          (ofSource policy after).records.map (Record.shifted n) := by
  have hclosed := closed_of_records h
  have hpolicy := ofSource_of_closed hclosed policy
  refine ⟨_, rfl, hpolicy, ?_, ?_⟩
  · rw [← hpolicy, tokens_ofSource, tokens_ofSource, tokens_ofSource, List.dropLast_concat,
      lexed_append_newline policy after hclosed, stop_append_newline, List.map_append,
      List.append_assoc]
    rfl
  · rw [← hpolicy]
    exact records_append_newline policy after hclosed

/-- A point at the end of a line stays alone, and a string may open behind it. -/
theorem ofSource_point_append_open_string :
    (∀ r ∈ (ofSource .error (utf8 "\"\n\" @ 1.")).records, ¬ r.IsUnclosed) ∧
      (ofSource .error (utf8 "\"\n\" @ 1." ++ newline :: utf8 "2 \"")).tokens.map
          (fun t => (t.kind, t.line)) =
        [(.string, 2), (.error, 2), (.number, 2), (.dot, 2), (.number, 3), (.eof, 3)] ∧
      (ofSource .error (utf8 "\"\n\" @ 1." ++ newline :: utf8 "2 \"")).records =
        [⟨.scan, 2, [], utf8 "Unexpected character."⟩,
          ⟨.scan, 3, [], utf8 "Unterminated string."⟩] := by
  have hfront : (ofSource .error (utf8 "\"\n\" @ 1.")).records =
      [⟨.scan, 2, [], utf8 "Unexpected character."⟩] := by
    decide +kernel
  have hclosed : ∀ r ∈ (ofSource .error (utf8 "\"\n\" @ 1.")).records, ¬ r.IsUnclosed := by
    rw [hfront, List.forall_mem_singleton, Record.IsUnclosed]
    decide +kernel
  obtain ⟨n, rfl, -, htokens, hrecords⟩ :=
    ofSource_append_newline .error (utf8 "2 \"") hclosed
  refine ⟨hclosed, ?_, ?_⟩
  · rw [htokens]
    decide +kernel
  · rw [hrecords, hfront]
    decide +kernel

end Scan

end Scriptlet
