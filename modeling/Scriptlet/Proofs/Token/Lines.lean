import Scriptlet.Proofs.Token.Tokenization

/-!
# Lines of tokens

The line of a segment counts the newlines of the source up to its end, whatever
strings and comments stand before it (`eq_append_of_numberedFrom`).  So the line
of a token is fixed by its place in the source, and lines never decrease
(`line_tokens`).
-/

namespace Scriptlet

@[simp] theorem Bytes.countNewlines_append (s t : Bytes) :
    countNewlines (s ++ t) = countNewlines s + countNewlines t :=
  List.count_append

def Token.shifted (n : Nat) (t : Token) : Token := { t with line := t.line + n }

def Record.shifted (n : Nat) (r : Record) : Record := { r with line := r.line + n }

@[simp] theorem Token.kind_shifted (n : Nat) (t : Token) : (t.shifted n).kind = t.kind := rfl

/--
The token `t` has the index `i` and stands right behind `before`: it is the
lexeme of the segment that follows the text `before` in the tiling of the source.
-/
structure Token.Placed (policy : Unterminated) (source : Bytes) (i : Nat) (t : Token)
    (before : Bytes) : Prop where
  tiled : ∃ front segment back,
    Segment.Tiles source (front ++ segment :: back) ∧
      front.flatMap Segment.text = before ∧
      (front.filterMap (Segment.spelling? policy)).length = i ∧
      segment.spelling? policy = some (t.kind, t.lexeme) ∧ segment.text = t.lexeme

namespace Segment

/-! ## Numbered segments -/

theorem numberedFrom_append (line : Nat) (front back : List Segment) :
    numberedFrom line (front ++ back) =
      numberedFrom line front ++
        numberedFrom (line + Bytes.countNewlines (front.flatMap text)) back := by
  induction front generalizing line with
  | nil => rfl
  | cons segment front ih =>
      rw [List.cons_append, numberedFrom, numberedFrom, ih, List.cons_append,
        List.flatMap_cons, Bytes.countNewlines_append, Nat.add_assoc]

/-- The number of a segment counts the newlines up to its end. -/
theorem eq_append_of_numberedFrom {line n : Nat} {segments : List Segment}
    {front back : List (Nat × Segment)} {segment : Segment}
    (h : numberedFrom line segments = front ++ (n, segment) :: back) :
    segments = front.map Prod.snd ++ segment :: back.map Prod.snd ∧
      n = line +
        Bytes.countNewlines ((front.map Prod.snd).flatMap text ++ segment.text) := by
  induction front generalizing line segments with
  | nil =>
      cases segments with
      | nil => cases h
      | cons first rest =>
          rw [numberedFrom, List.nil_append, List.cons.injEq, Prod.mk.injEq] at h
          obtain ⟨⟨rfl, rfl⟩, rfl⟩ := h
          simp [map_snd_numberedFrom]
  | cons entry front ih =>
      cases segments with
      | nil => cases h
      | cons first rest =>
          rw [numberedFrom, List.cons_append, List.cons.injEq] at h
          obtain ⟨rfl, hrest⟩ := h
          obtain ⟨rfl, rfl⟩ := ih hrest
          refine ⟨rfl, ?_⟩
          simp only [List.map_cons, List.flatMap_cons, Bytes.countNewlines_append]
          omega

theorem numberedFrom_bounds {line : Nat} {segments : List Segment} {entry : Nat × Segment}
    (h : entry ∈ numberedFrom line segments) :
    line ≤ entry.1 ∧ entry.1 ≤ line + Bytes.countNewlines (segments.flatMap text) := by
  obtain ⟨front, back, hsplit⟩ := List.append_of_mem h
  obtain ⟨rfl, hline⟩ := eq_append_of_numberedFrom hsplit
  rw [hline]
  simp only [List.flatMap_append, List.flatMap_cons, Bytes.countNewlines_append]
  omega

theorem numberedFrom_add (line n : Nat) (segments : List Segment) :
    numberedFrom (line + n) segments =
      (numberedFrom line segments).map (Prod.map (· + n) id) := by
  induction segments generalizing line with
  | nil => rfl
  | cons segment segments ih =>
      rw [numberedFrom, numberedFrom, List.map_cons, ← ih, Prod.map_apply, id,
        Nat.add_right_comm]

theorem pairwise_numberedFrom (line : Nat) (segments : List Segment) :
    (numberedFrom line segments).Pairwise fun a b => a.1 ≤ b.1 := by
  induction segments generalizing line with
  | nil => exact .nil
  | cons segment segments ih =>
      rw [numberedFrom, List.pairwise_cons]
      exact ⟨fun entry hentry => (numberedFrom_bounds hentry).1, ih _⟩

/-! ## The token of a segment -/

theorem line_of_token? {policy : Unterminated} {line : Nat} {segment : Segment} {t : Token}
    (h : segment.token? policy line = some t) : t.line = line := by
  cases segment with
  | lexeme kind content =>
      cases h
      rfl
  | openString content =>
      cases policy <;> cases h
      rfl
  | _ => cases h

private theorem text_of_token? {policy : Unterminated} {line : Nat} {segment : Segment} {t : Token}
    (h : segment.token? policy line = some t) :
    segment.text = t.lexeme ∧ segment.spelling? policy = some (t.kind, t.lexeme) := by
  refine ⟨?_, ?_⟩
  · cases segment with
    | lexeme kind content =>
        cases h
        rfl
    | openString content =>
        cases policy <;> cases h
        rfl
    | _ => cases h
  · rw [← spelling?_eq policy line, h, Option.map_some]

theorem token?_add (policy : Unterminated) (line n : Nat) (segment : Segment) :
    segment.token? policy (line + n) =
      (segment.token? policy line).map (Token.shifted n) := by
  cases segment with
  | openString content => cases policy <;> rfl
  | _ => rfl

theorem record?_add (policy : Unterminated) (line n : Nat) (segment : Segment) :
    segment.record? policy (line + n) =
      (segment.record? policy line).map (Record.shifted n) := by
  cases segment with
  | lexeme kind content => cases kind <;> rfl
  | openString content => cases policy <;> rfl
  | openComment content => cases policy <;> rfl
  | _ => rfl

end Segment

namespace Scan

/-! ## Tokens -/

theorem line_of_mem_lexed {policy : Unterminated} {source : Bytes} {t : Token}
    (h : t ∈ lexed policy source) : 1 ≤ t.line ∧ t.line ≤ lastLine source := by
  obtain ⟨line, segment, hmem, -, htoken⟩ := exists_segment_of_mem_lexed h
  rw [Segment.numbered_eq] at hmem
  obtain ⟨hlower, hupper⟩ := Segment.numberedFrom_bounds hmem
  rw [Segment.flatten_segments] at hupper
  rw [Segment.line_of_token? htoken, lastLine]
  simp only at hlower hupper
  omega

theorem pairwise_line_tokens (policy : Unterminated) (source : Bytes) :
    (ofSource policy source).tokens.Pairwise fun a b => a.line ≤ b.line := by
  rw [tokens_ofSource, List.pairwise_append]
  refine ⟨?_, List.pairwise_singleton _ _, ?_⟩
  · rw [lexed, Segment.numbered_eq, List.pairwise_filterMap]
    refine (Segment.pairwise_numberedFrom 1 _).imp ?_
    intro a b hle t ht u hu
    rw [Segment.line_of_token? ht, Segment.line_of_token? hu]
    exact Int.ofNat_le.mpr hle
  · intro t ht u hu
    obtain rfl := List.mem_singleton.mp hu
    exact (line_of_mem_lexed ht).2

theorem placed_of_getElem? {policy : Unterminated} {source : Bytes} {i : Nat} {t : Token}
    (h : (lexed policy source)[i]? = some t) :
    ∃ before, t.Placed policy source i before ∧ before ++ t.lexeme <+: source ∧
      t.line = 1 + Bytes.countNewlines (before ++ t.lexeme) := by
  obtain ⟨hi, hget⟩ := List.getElem?_eq_some_iff.mp h
  have hsplit := List.take_append_drop i (lexed policy source)
  rw [List.drop_eq_getElem_cons hi, hget, eq_comm, lexed,
    List.filterMap_eq_append_iff] at hsplit
  obtain ⟨first, later, hnumbered, hfirst, hlater⟩ := hsplit
  rw [List.filterMap_eq_cons_iff] at hlater
  obtain ⟨silent, ⟨line, segment⟩, back, rfl, hsilent, htoken, -⟩ := hlater
  rw [Segment.numbered_eq, ← List.append_assoc] at hnumbered
  obtain ⟨hsegments, hline⟩ := Segment.eq_append_of_numberedFrom hnumbered
  obtain ⟨htext, hspelling⟩ := Segment.text_of_token? htoken
  have hcount : (((first ++ silent).map Prod.snd).filterMap
      (Segment.spelling? policy)).length = i := by
    rw [← Segment.map_filterMap_token?, List.filterMap_append,
      List.filterMap_eq_nil_iff.mpr hsilent, List.append_nil, hfirst, List.length_map]
    exact List.length_take_of_le hi.le
  have htiles := Segment.tiles_segments source
  have hsource := Segment.flatten_segments source
  rw [hsegments] at htiles hsource
  refine ⟨((first ++ silent).map Prod.snd).flatMap Segment.text,
    ⟨_, segment, back.map Prod.snd, htiles, rfl, hcount, hspelling, htext⟩, ?_, ?_⟩
  · refine ⟨(back.map Prod.snd).flatMap Segment.text, ?_⟩
    rw [← htext, List.append_assoc, ← List.flatMap_cons, ← List.flatMap_append]
    exact hsource
  · rw [Segment.line_of_token? htoken, hline, htext]
    exact Int.natCast_add 1 _

/--
The line of a token is one more than the number of newlines up to the end of
its lexeme, and that of the end token counts all of them.  So the lines of
tokens never decrease.
-/
theorem line_tokens (policy : Unterminated) (source : Bytes) :
    ∃ (body : List Token) (stop : Token),
      (ofSource policy source).tokens = body ++ [stop] ∧ stop.kind = .eof ∧
      (∀ (i : Nat) (t : Token), body[i]? = some t →
        ∃ before, t.Placed policy source i before ∧ before ++ t.lexeme <+: source ∧
          t.line = 1 + Bytes.countNewlines (before ++ t.lexeme)) ∧
      stop.line = 1 + Bytes.countNewlines source ∧
      (ofSource policy source).tokens.Pairwise fun a b => a.line ≤ b.line :=
  ⟨lexed policy source, stop source, tokens_ofSource policy source, rfl,
    fun _ _ h => placed_of_getElem? h, by simp [stop, lastLine],
    pairwise_line_tokens policy source⟩

end Scan

end Scriptlet
