import Scriptlet.Proofs.Token.Stop
import Scriptlet.Text.Blank

/-!
# White space around a line

Trimming knows more white space than the scanner, which passes over four bytes
and takes any other character for a problem.  So a line and what trimming leaves
of it are scanned alike only if the scanner passes over the margins as well, or
if a comment or an open string takes the second of them in (`ofSource_trim`).
-/

namespace Scriptlet

/-! ## What trimming takes off -/

namespace Blank

theorem exists_dropAll (forms : List Bytes) (fuel : Nat) (s : Bytes) :
    ∃ off : List Bytes, off ⊆ forms ∧ s = off.flatten ++ dropAll forms fuel s := by
  induction fuel generalizing s with
  | zero => exact ⟨[], List.nil_subset _, rfl⟩
  | succ fuel ih =>
      rw [dropAll]
      cases hdrop : dropOne? forms s with
      | none => exact ⟨[], List.nil_subset _, rfl⟩
      | some rest =>
          obtain ⟨form, hform, hrest⟩ := List.exists_of_findSome?_eq_some hdrop
          rw [List.isPrefixOf?_eq_some_iff_append_eq] at hrest
          obtain ⟨off, hoff, heq⟩ := ih rest
          refine ⟨form :: off, List.cons_subset.mpr ⟨hform, hoff⟩, ?_⟩
          rw [List.flatten_cons, List.append_assoc, ← heq, hrest]

private theorem exists_trimStart (s : Bytes) :
    ∃ off : List Bytes, off ⊆ blanks ∧ s = off.flatten ++ trimStart s :=
  exists_dropAll blanks s.length s

private theorem exists_trimEnd (s : Bytes) :
    ∃ off : List Bytes, off ⊆ blanks ∧ s = trimEnd s ++ off.flatten := by
  obtain ⟨off, hoff, hs⟩ := exists_dropAll (blanks.map List.reverse) s.length s.reverse
  refine ⟨(off.map List.reverse).reverse, ?_, ?_⟩
  · intro form hform
    obtain ⟨mirrored, hmirrored, rfl⟩ := List.mem_map.mp (List.mem_reverse.mp hform)
    obtain ⟨original, horiginal, rfl⟩ := List.mem_map.mp (hoff hmirrored)
    rwa [List.reverse_reverse]
  · have hreversed := congrArg List.reverse hs
    rwa [List.reverse_reverse, List.reverse_append, List.reverse_flatten] at hreversed

def front (s : Bytes) : Bytes := s.take (s.length - (trimStart s).length)

def back (s : Bytes) : Bytes := (trimStart s).drop (trim s).length

theorem exists_margins (s : Bytes) :
    ∃ before behind : List Bytes, before ⊆ blanks ∧ behind ⊆ blanks ∧
      front s = before.flatten ∧ back s = behind.flatten ∧
      s = before.flatten ++ (trim s ++ behind.flatten) := by
  obtain ⟨before, hbefore, hs⟩ := exists_trimStart s
  obtain ⟨behind, hbehind, hstart⟩ := exists_trimEnd (trimStart s)
  rw [← trim] at hstart
  have hlength : s.length - (trimStart s).length = before.flatten.length := by
    have htotal := congrArg List.length hs
    rw [List.length_append] at htotal
    omega
  have hfront : front s = before.flatten := by
    rw [front, hlength]
    conv => lhs; rw [hs]
    exact List.take_left
  have hback : back s = behind.flatten := by
    rw [back]
    conv => lhs; rw [hstart]
    exact List.drop_left
  exact ⟨before, behind, hbefore, hbehind, hfront, hback, hstart ▸ hs⟩

end Blank

/-! ## The margins as segments -/

namespace Segment

open Bytes (isDigit isLetter)

def ofBlank (form : Bytes) : Segment :=
  match form with
  | [b] => if isBlank b then .blank b else .lexeme .error [b]
  | _ => .lexeme .error form

private theorem segments_form {form : Bytes} (hform : form ∈ Blank.blanks) (rest : Bytes) :
    segments (form ++ rest) = ofBlank form :: segments rest := by
  simp only [Blank.blanks, List.mem_cons, List.not_mem_nil, or_false] at hform
  casesm* _ ∨ _
  all_goals
    subst hform
    rw [List.cons_append, segments_cons]
    rfl

theorem segments_forms {forms : List Bytes} (hforms : forms ⊆ Blank.blanks) (rest : Bytes) :
    segments (forms.flatten ++ rest) = forms.map ofBlank ++ segments rest := by
  induction forms with
  | nil => rfl
  | cons form forms ih =>
      obtain ⟨hform, hlater⟩ := List.cons_subset.mp hforms
      rw [List.flatten_cons, List.append_assoc, segments_form hform, ih hlater]
      rfl

private theorem exists_stop_of_mem_blanks {form : Bytes} (hform : form ∈ Blank.blanks) :
    ∃ stop more, form = stop :: more ∧ Stops stop := by
  simp only [Blank.blanks, List.mem_cons, List.not_mem_nil, or_false] at hform
  casesm* _ ∨ _
  all_goals
    subst hform
    refine ⟨_, _, rfl, ?_⟩
    constructor <;> decide

/-! ## Segments that take white space in -/

/-- Whether the segment ends whatever follows, so that white space behind it is cut off. -/
def endsItself (segment : Segment) : Bool := !segment.isOpen && !segment.isLineComment

def extended (more : Bytes) : Segment → Segment
  | comment content => comment (content ++ more)
  | openString content => openString (content ++ more)
  | openComment content => openComment (content ++ more)
  | segment => segment

theorem forall_endsItself_or (segments : List Segment) :
    (∀ segment ∈ segments, segment.endsItself = true) ∨
      ∃ segment ∈ segments, segment.endsItself = false := by
  by_cases h : ∃ segment ∈ segments, segment.endsItself = false
  · exact .inr h
  · refine .inl fun segment hsegment => ?_
    simpa using fun hfalse => h ⟨segment, hsegment, hfalse⟩

theorem endsBefore_of_endsItself {segment : Segment} (h : segment.endsItself = true)
    (stop : UInt8) : segment.endsBefore stop = true := by
  rw [endsItself, Bool.and_eq_true] at h
  rw [endsBefore, h.1, h.2, Bool.or_true]
  rfl

private theorem endsItself_next {c : UInt8} (rest : Bytes) (hslash : c ≠ slash)
    (hquote : c ≠ quote) :
    (next c rest).1.endsItself = true := by
  cases hsingle : single? c with
  | some kind =>
      rw [next_of_single _ hsingle]
      rfl
  | none =>
      cases hpaired : paired? c with
      | some kinds =>
          simp only [next, hsingle, hpaired]
          cases rest with
          | nil => rfl
          | cons d more =>
              by_cases hd : d = equals <;> simp [hd, endsItself, isOpen, isLineComment]
      | none =>
          cases hblank : isBlank c with
          | true =>
              rw [next_of_isBlank _ hblank]
              rfl
          | false =>
              cases hdigit : isDigit c with
              | true =>
                  rw [next_of_isDigit _ hdigit]
                  unfold number
                  dsimp only
                  split
                  · split <;> rfl
                  · rfl
              | false =>
                  cases hletter : isLetter c with
                  | true =>
                      rw [next_of_isLetter _ hletter]
                      rfl
                  | false =>
                      have hother : Unclassed c :=
                        ⟨hsingle, hpaired, hslash, hblank, hquote, hdigit, hletter⟩
                      rw [next_of_unclassed _ hother]
                      rfl

private theorem not_infix_append {s more : Bytes} (hmore : slash ∉ more)
    (h : ¬ [star, slash] <:+: s) : ¬ [star, slash] <:+: s ++ more := by
  rintro ⟨front, back, heq⟩
  rw [List.append_eq_append_iff] at heq
  rcases heq with ⟨between, rfl, -⟩ | ⟨between, hfront, rfl⟩
  · exact h ⟨front, between, rfl⟩
  · -- the mark would reach into `more`, or it stands at the end of `s`
    cases between using List.reverseRecOn with
    | nil =>
        rw [List.append_nil] at hfront
        exact h ⟨front, [], by rw [hfront, List.append_nil]⟩
    | append_singleton between last =>
        have hlast := congrArg List.getLast? hfront
        simp only [List.getLast?_append, List.getLast?_cons_cons, List.getLast?_singleton,
          Option.some_or, Option.some.injEq] at hlast
        simp [hlast] at hmore

section Taken

variable {more : Bytes} (hmore : ∀ b ∈ more, b ≠ newline ∧ b ≠ quote ∧ b ≠ slash)
include hmore

private theorem afterSlash_append_taken {rest : Bytes} (hline : newline ∉ rest)
    (hends : (afterSlash rest).1.endsItself = false) :
    (afterSlash rest).2 = [] ∧
      afterSlash (rest ++ more) = ((afterSlash rest).1.extended more, []) := by
  cases rest with
  | nil => cases hends
  | cons c behind =>
      rw [List.mem_cons, not_or] at hline
      rw [List.cons_append]
      by_cases hslash : c = slash
      · have hbehind := bne_of_not_mem hline.2
        have hboth : ∀ b ∈ behind ++ more, (b != newline) = true :=
          List.forall_mem_append.mpr ⟨hbehind, fun b hb => bne_iff_ne.mpr (hmore b hb).1⟩
        rw [hslash, afterSlash_slash, afterSlash_slash, List.takeWhile_eq_self_iff.mpr hbehind,
          List.dropWhile_eq_nil_iff.mpr hbehind, List.takeWhile_eq_self_iff.mpr hboth,
          List.dropWhile_eq_nil_iff.mpr hboth]
        exact ⟨rfl, rfl⟩
      · by_cases hstar : c = star
        · rw [hstar, afterSlash_star] at hends
          rw [hstar, afterSlash_star, afterSlash_star]
          cases hclose : closeComment [star, slash] behind with
          | some cut =>
              obtain ⟨content, after⟩ := cut
              obtain ⟨body, -, rfl, -⟩ := closeComment_eq_some hclose
              rw [hclose] at hends
              simp [endsItself, isOpen, isLineComment, star, slash] at hends
          | none =>
              have hfree := not_infix_of_closeComment hclose
              have hslashes : slash ∉ more := fun hmem => (hmore slash hmem).2.2 rfl
              rw [closeComment_eq_none (not_infix_append hslashes hfree)]
              exact ⟨rfl, rfl⟩
        · rw [afterSlash_plain _ hslash hstar] at hends
          cases hends

private theorem afterQuote_append_taken {rest : Bytes}
    (hends : (afterQuote rest).1.endsItself = false) :
    (afterQuote rest).2 = [] ∧
      afterQuote (rest ++ more) = ((afterQuote rest).1.extended more, []) := by
  cases hdrop : rest.dropWhile (· != quote) with
  | cons q behind =>
      simp only [afterQuote, hdrop] at hends
      cases hends
  | nil =>
      have hrest := List.dropWhile_eq_nil_iff.mp hdrop
      have hboth : ∀ b ∈ rest ++ more, (b != quote) = true :=
        List.forall_mem_append.mpr ⟨hrest, fun b hb => bne_iff_ne.mpr (hmore b hb).2.1⟩
      rw [afterQuote, hdrop, afterQuote, List.dropWhile_eq_nil_iff.mpr hboth]
      exact ⟨rfl, rfl⟩

private theorem next_append_taken {c : UInt8} {rest : Bytes} (hline : newline ∉ rest)
    (hends : (next c rest).1.endsItself = false) :
    (next c rest).2 = [] ∧ next c (rest ++ more) = ((next c rest).1.extended more, []) := by
  by_cases hslash : c = slash
  · rw [hslash, next_slash] at hends
    rw [hslash, next_slash, next_slash]
    exact afterSlash_append_taken hmore hline hends
  by_cases hquote : c = quote
  · rw [hquote, next_quote] at hends
    rw [hquote, next_quote, next_quote]
    exact afterQuote_append_taken hmore hends
  · rw [endsItself_next rest hslash hquote] at hends
    cases hends

end Taken

/-- In a line, only the last segment can take in what follows. -/
theorem exists_taken {s after : Bytes} {stop : UInt8} (hline : newline ∉ s)
    (hmore : ∀ b ∈ stop :: after, b ≠ newline ∧ b ≠ quote ∧ b ≠ slash) (hstop : Stops stop)
    (h : ∃ segment ∈ segments s, segment.endsItself = false) :
    ∃ front last, segments s = front ++ [last] ∧
      (∀ segment ∈ front, segment.endsItself = true) ∧
      segments (s ++ stop :: after) = front ++ [last.extended (stop :: after)] := by
  match s with
  | [] =>
      rw [segments_nil] at h
      simp at h
  | c :: rest =>
      have hrest : newline ∉ rest := fun hmem => hline (List.mem_cons_of_mem _ hmem)
      rw [segments_cons] at h
      rw [segments_cons, List.cons_append, segments_cons]
      cases hends : (next c rest).1.endsItself with
      | false =>
          -- it leaves nothing, so it is the last one, with the white space or without
          obtain ⟨hnothing, htaken⟩ := next_append_taken hmore hrest hends
          refine ⟨[], (next c rest).1, ?_, by simp, ?_⟩
          · rw [hnothing, segments_nil]
            rfl
          · rw [htaken, segments_nil]
            rfl
      | true =>
          have hlater : ∃ segment ∈ segments (next c rest).2, segment.endsItself = false := by
            simpa [hends] using h
          have hbehind : newline ∉ (next c rest).2 := by
            intro hmem
            apply hline
            rw [← whole_next c rest]
            exact List.mem_append_right _ hmem
          obtain ⟨front, last, hfront, hothers, htaken⟩ :=
            exists_taken hbehind hmore hstop hlater
          refine ⟨(next c rest).1 :: front, last, ?_,
            List.forall_mem_cons.mpr ⟨hends, hothers⟩, ?_⟩
          · rw [hfront]
            rfl
          · rw [next_append_stop hstop after (endsBefore_of_endsItself hends stop),
              Prod.map_fst, Prod.map_snd, htaken]
            rfl
  termination_by s.length
  decreasing_by
    have hlength := length_next_le c rest
    simp only [List.length_cons]
    omega

/-! ## The tokens and records of a line -/

theorem ofBlank_cases {form : Bytes} (hform : form ∈ Blank.blanks) :
    (∃ b, ofBlank form = .blank b ∧ form = [b] ∧ isBlank b = true) ∨
      (ofBlank form = .lexeme .error form ∧ ∃ b ∈ form, isBlank b = false) := by
  simp only [Blank.blanks, List.mem_cons, List.not_mem_nil, or_false] at hform
  casesm* _ ∨ _
  all_goals
    subst hform
    first
    | exact .inl ⟨_, rfl, rfl, by decide⟩
    | exact .inr ⟨rfl, _, List.mem_cons_self, by decide⟩

def strays (policy : Unterminated) (forms : List Bytes) : Diagnostics :=
  (forms.map ofBlank).filterMap (record? policy 1)

theorem strays_eq_nil_iff (policy : Unterminated) {forms : List Bytes}
    (hforms : forms ⊆ Blank.blanks) :
    strays policy forms = [] ↔ ∀ b ∈ forms.flatten, isBlank b = true := by
  rw [strays, List.filterMap_map, List.filterMap_eq_nil_iff]
  simp only [List.mem_flatten, forall_exists_index, and_imp]
  constructor
  · intro hnone b form hform hb
    rcases ofBlank_cases (hforms hform) with ⟨c, -, rfl, hc⟩ | ⟨hstray, -⟩
    · rwa [List.mem_singleton.mp hb]
    · have hrecord := hnone form hform
      simp [hstray, record?] at hrecord
  · intro hall form hform
    rcases ofBlank_cases (hforms hform) with ⟨c, hblank, -, -⟩ | ⟨-, b, hb, hstray⟩
    · simp [hblank, record?]
    · rw [hall b form hform hb] at hstray
      cases hstray

theorem filterMap_token?_ofBlank (policy : Unterminated) {forms : List Bytes}
    (hforms : forms ⊆ Blank.blanks) (hall : ∀ b ∈ forms.flatten, isBlank b = true) :
    (forms.map ofBlank).filterMap (token? policy 1) = [] := by
  rw [List.filterMap_map, List.filterMap_eq_nil_iff]
  intro form hform
  rcases ofBlank_cases (hforms hform) with ⟨c, hblank, -, -⟩ | ⟨-, b, hb, hstray⟩
  · simp [hblank, token?]
  · rw [hall b (List.mem_flatten.mpr ⟨form, hform, hb⟩)] at hstray
    cases hstray

theorem record?_extended (policy : Unterminated) (line : Nat) (segment : Segment)
    (more : Bytes) : (segment.extended more).record? policy line = segment.record? policy line := by
  cases segment <;> rfl

private theorem token?_extended {policy : Unterminated} (line : Nat) {segment : Segment}
    (more : Bytes)
    (h : policy = .eof → ∀ content, segment ≠ .openString content) :
    (segment.extended more).token? policy line = segment.token? policy line := by
  cases segment with
  | openString content =>
      cases policy with
      | error => rfl
      | eof => exact absurd rfl (h rfl content)
  | _ => rfl

private theorem numberedFrom_of_not_mem {line : Nat} {segments : List Segment}
    (h : newline ∉ segments.flatMap text) :
    numberedFrom line segments = segments.map (line, ·) := by
  induction segments with
  | nil => rfl
  | cons segment rest ih =>
      rw [List.flatMap_cons, List.mem_append, not_or] at h
      rw [numberedFrom, Bytes.countNewlines, List.count_eq_zero_of_not_mem h.1, Nat.add_zero,
        ih h.2]
      rfl

theorem exists_stop_of_subset {form : Bytes} {forms : List Bytes}
    (hforms : form :: forms ⊆ Blank.blanks) :
    ∃ stop after, (form :: forms).flatten = stop :: after ∧ Stops stop := by
  obtain ⟨stop, more, rfl, hstop⟩ :=
    exists_stop_of_mem_blanks (List.cons_subset.mp hforms).1
  exact ⟨stop, more ++ forms.flatten, rfl, hstop⟩

private theorem plain_of_subset {forms : List Bytes} (hforms : forms ⊆ Blank.blanks) :
    ∀ b ∈ forms.flatten, b ≠ quote ∧ b ≠ slash := by
  have hplain : ∀ form ∈ Blank.blanks, ∀ b ∈ form, b ≠ quote ∧ b ≠ slash := by
    decide +kernel
  intro b hb
  obtain ⟨form, hform, hmem⟩ := List.mem_flatten.mp hb
  exact hplain form (hforms hform) b hmem

section Margins

variable {core : Bytes} {behind : List Bytes} (hbehind : behind ⊆ Blank.blanks)
include hbehind

private theorem segments_append_forms
    (hends : ∀ segment ∈ segments core, segment.endsItself = true) :
    segments (core ++ behind.flatten) = segments core ++ behind.map ofBlank := by
  cases behind with
  | nil => simp
  | cons form forms =>
      obtain ⟨stop, after, hflatten, hstop⟩ := exists_stop_of_subset hbehind
      have hforms := segments_forms hbehind []
      rw [List.append_nil, segments_nil, List.append_nil] at hforms
      rw [← hforms, hflatten, segments_append_stop hstop after]
      exact fun segment hsegment => endsBefore_of_endsItself (hends segment hsegment) stop

theorem exists_extended (hline : newline ∉ core ++ behind.flatten)
    (h : ∃ segment ∈ segments core, segment.endsItself = false) :
    ∃ front last, segments core = front ++ [last] ∧
      (∀ segment ∈ front, segment.endsItself = true) ∧
      segments (core ++ behind.flatten) = front ++ [last.extended behind.flatten] := by
  rw [List.mem_append, not_or] at hline
  cases behind with
  | nil =>
      have hspace : ∀ b ∈ [space], b ≠ newline ∧ b ≠ quote ∧ b ≠ slash := by
        decide +kernel
      obtain ⟨front, last, hfront, hothers, -⟩ :=
        exists_taken hline.1 hspace stops_space h
      refine ⟨front, last, hfront, hothers, ?_⟩
      rw [List.flatten_nil, List.append_nil, hfront]
      cases last <;> simp [extended]
  | cons form forms =>
      have hplain := plain_of_subset hbehind
      obtain ⟨stop, after, hflatten, hstop⟩ := exists_stop_of_subset hbehind
      rw [hflatten] at hline hplain ⊢
      refine exists_taken hline.1 ?_ hstop h
      intro b hb
      exact ⟨fun heq => hline.2 (heq ▸ hb), hplain b hb⟩

end Margins

end Segment

namespace Scan

open Segment

def ofLine (policy : Unterminated) (segments : List Segment) : Scan :=
  { tokens := segments.filterMap (token? policy 1) ++ [⟨.eof, [], 1, .none⟩]
    records := segments.filterMap (record? policy 1) }

theorem ofSource_of_not_mem (policy : Unterminated) {line : Bytes} (hline : newline ∉ line) :
    ofSource policy line = ofLine policy (segments line) := by
  have hlast : lastLine line = 1 := by
    rw [lastLine, Bytes.countNewlines, List.count_eq_zero_of_not_mem hline]
  have hnumbered : numbered (segments line) = (segments line).map (1, ·) := by
    rw [numbered_eq, numberedFrom_of_not_mem]
    rwa [flatten_segments]
  simp only [ofSource, ofLine, passed_eq, hlast, hnumbered, List.filterMap_map, Function.comp_def]
  rfl

section Margins

variable (policy : Unterminated) {core : Bytes} {before behind : List Bytes}
  (hbefore : before ⊆ Blank.blanks) (hbehind : behind ⊆ Blank.blanks)
  (hline : newline ∉ before.flatten ++ (core ++ behind.flatten))
include hbefore hbehind hline

theorem ofSource_of_ends (hends : ∀ segment ∈ segments core, segment.endsItself = true) :
    ofSource policy (before.flatten ++ (core ++ behind.flatten)) =
        ofLine policy (before.map ofBlank ++ (segments core ++ behind.map ofBlank)) ∧
      ofSource policy core = ofLine policy (segments core) := by
  rw [ofSource_of_not_mem policy hline, segments_forms hbefore,
    segments_append_forms hbehind hends]
  refine ⟨rfl, ofSource_of_not_mem policy ?_⟩
  exact fun hmem => hline (List.mem_append_right _ (List.mem_append_left _ hmem))

theorem exists_ofSource_of_taken
    (htaken : ∃ segment ∈ segments core, segment.endsItself = false) :
    ∃ front last, segments core = front ++ [last] ∧
      ofSource policy (before.flatten ++ (core ++ behind.flatten)) =
        ofLine policy (before.map ofBlank ++ (front ++ [last.extended behind.flatten])) ∧
      ofSource policy core = ofLine policy (front ++ [last]) := by
  have hafter : newline ∉ core ++ behind.flatten :=
    fun hmem => hline (List.mem_append_right _ hmem)
  obtain ⟨front, last, hfront, -, hextended⟩ := exists_extended hbehind hafter htaken
  refine ⟨front, last, hfront, ?_, ?_⟩
  · rw [ofSource_of_not_mem policy hline, segments_forms hbefore, hextended]
  · rw [ofSource_of_not_mem policy fun hmem => hafter (List.mem_append_left _ hmem), hfront]

private theorem length_records_of_ends
    (hends : ∀ segment ∈ segments core, segment.endsItself = true) :
    (ofSource policy (before.flatten ++ (core ++ behind.flatten))).records.length =
      (strays policy before).length + (ofSource policy core).records.length
        + (strays policy behind).length := by
  obtain ⟨hwhole, hcore⟩ := ofSource_of_ends policy hbefore hbehind hline hends
  simp [hwhole, hcore, ofLine, strays, List.filterMap_append]
  omega

private theorem length_records_of_taken
    (htaken : ∃ segment ∈ segments core, segment.endsItself = false) :
    (ofSource policy (before.flatten ++ (core ++ behind.flatten))).records.length =
      (strays policy before).length + (ofSource policy core).records.length := by
  obtain ⟨front, last, -, hwhole, hcore⟩ :=
    exists_ofSource_of_taken policy hbefore hbehind hline htaken
  simp [hwhole, hcore, ofLine, strays, List.filterMap_append, List.filterMap_cons,
    record?_extended]

end Margins

/--
The scanner reports no white space around the line: it passes over it, or a
line comment or an open segment takes it in.
-/
structure PassesOver (line : Bytes) : Prop where
  front : ∀ b ∈ Blank.front line, isBlank b = true
  back : (∀ b ∈ Blank.back line, isBlank b = true) ∨
    ∃ segment ∈ segments (Blank.trim line), segment.endsItself = false

section Trim

variable (policy : Unterminated) {line : Bytes} (hline : newline ∉ line)
include hline

theorem ofSource_trim (hpasses : PassesOver line)
    (hstring : policy = .eof →
      ∀ content, .openString content ∈ segments (Blank.trim line) → Blank.back line = []) :
    ofSource policy line = ofSource policy (Blank.trim line) := by
  obtain ⟨before, behind, hbefore, hbehind, hfront, hback, hwhole⟩ :=
    Blank.exists_margins line
  obtain ⟨hpassed, hbacked⟩ := hpasses
  rw [hfront] at hpassed
  rw [hback] at hbacked hstring
  rw [hwhole] at hline
  have htokens := filterMap_token?_ofBlank policy hbefore hpassed
  have hrecords := (strays_eq_nil_iff policy hbefore).mpr hpassed
  rw [strays] at hrecords
  conv => lhs; rw [hwhole]
  rcases forall_endsItself_or (segments (Blank.trim line)) with hends | htaken
  · have hbacked' : ∀ b ∈ behind.flatten, isBlank b = true := by
      rcases hbacked with hall | ⟨segment, hsegment, htaken⟩
      · exact hall
      · rw [hends segment hsegment] at htaken
        cases htaken
    have htokens' := filterMap_token?_ofBlank policy hbehind hbacked'
    have hrecords' := (strays_eq_nil_iff policy hbehind).mpr hbacked'
    rw [strays] at hrecords'
    obtain ⟨hsource, hcore⟩ := ofSource_of_ends policy hbefore hbehind hline hends
    simp only [hsource, hcore, ofLine, List.filterMap_append, htokens, htokens', hrecords,
      hrecords', List.nil_append, List.append_nil]
  · obtain ⟨front, last, hsegments, hsource, hcore⟩ :=
      exists_ofSource_of_taken policy hbefore hbehind hline htaken
    have htoken : (last.extended behind.flatten).token? policy 1 = last.token? policy 1 := by
      by_cases hopen : policy = .eof ∧ ∃ content, last = .openString content
      · obtain ⟨hpolicy, content, rfl⟩ := hopen
        rw [hstring hpolicy content (by simp [hsegments])]
        simp [extended]
      · exact token?_extended 1 _ fun hpolicy content heq => hopen ⟨hpolicy, content, heq⟩
    simp only [hsource, hcore, ofLine, List.filterMap_append, List.filterMap_cons,
      List.filterMap_nil, htokens, hrecords, htoken, record?_extended, List.nil_append]

/-- What the scanner does not pass over is one more problem a character. -/
theorem length_records_trim_lt (hpasses : ¬PassesOver line) :
    (ofSource policy (Blank.trim line)).records.length <
      (ofSource policy line).records.length := by
  obtain ⟨before, behind, hbefore, hbehind, hfront, hback, hwhole⟩ :=
    Blank.exists_margins line
  rw [hwhole] at hline
  conv => rhs; rw [hwhole]
  have hfronts : strays policy before = [] → ∀ b ∈ Blank.front line, isBlank b = true := by
    rw [hfront]
    exact (strays_eq_nil_iff policy hbefore).mp
  rcases forall_endsItself_or (segments (Blank.trim line)) with hends | htaken
  · have hbacks : strays policy behind = [] → ∀ b ∈ Blank.back line, isBlank b = true := by
      rw [hback]
      exact (strays_eq_nil_iff policy hbehind).mp
    rw [length_records_of_ends policy hbefore hbehind hline hends]
    by_contra hle
    have hnone : strays policy before = [] ∧ strays policy behind = [] := by
      simp only [← List.length_eq_zero_iff]
      omega
    exact hpasses ⟨hfronts hnone.1, .inl (hbacks hnone.2)⟩
  · rw [length_records_of_taken policy hbefore hbehind hline htaken]
    by_contra hle
    have hnone : strays policy before = [] := by
      rw [← List.length_eq_zero_iff]
      omega
    exact hpasses ⟨hfronts hnone, .inr htaken⟩

end Trim

/-- White space behind a string without end belongs to the string. -/
theorem exists_openString_of_trim {line content : Bytes} (hline : newline ∉ line)
    (h : .openString content ∈ segments (Blank.trim line)) :
    ∃ longer, .openString longer ∈ segments line := by
  obtain ⟨before, behind, hbefore, hbehind, -, -, hwhole⟩ := Blank.exists_margins line
  have hafter : newline ∉ Blank.trim line ++ behind.flatten := by
    intro hmem
    rw [hwhole] at hline
    exact hline (List.mem_append_right _ hmem)
  obtain ⟨front, last, hfront, hothers, hextended⟩ :=
    exists_extended hbehind hafter ⟨_, h, rfl⟩
  have hlast : last = .openString content := by
    rw [hfront, List.mem_append, List.mem_singleton] at h
    rcases h with hmem | heq
    · cases hothers _ hmem
    · exact heq.symm
  refine ⟨content ++ behind.flatten, ?_⟩
  rw [hwhole, segments_forms hbefore, hextended, hlast]
  simp [extended]

end Scan

end Scriptlet
