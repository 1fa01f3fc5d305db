import Scriptlet.Proofs.Run.Order
import Scriptlet.Proofs.Session.Scrollback
import Scriptlet.Proofs.Token.Margins

/-!
# Two ways to enter a line

A conversation runs a line as it is and a screen what trimming leaves of it.
They always agree on whether the line is run, and on what it writes if the
scanner passes over the white space around it (`submit_agrees`).
-/

namespace Scriptlet

/-! ## Runs of sources that are scanned alike -/

namespace Run

variable {policy : Unterminated} {a b : Bytes}
  (h : Scan.ofSource policy a = Scan.ofSource policy b)

include h in
theorem start_of_scan_eq (id : Bytes) (c : Console) :
    start policy id .evaluation a c =
      { start policy id .evaluation b c with source := a } := by
  simp only [start, h]

include h in
private theorem problems_of_scan_eq : problems policy a = problems policy b := by
  rw [problems, start_of_scan_eq h]
  rfl

include h in
theorem printed_of_scan_eq : printed policy a = printed policy b := by
  rw [printed, printed, obstacles, obstacles, stmts, stmts, h]

theorem filter_scan_problems (policy : Unterminated) (source : Bytes) :
    (problems policy source).filter (fun r => r.stage == .scan) =
      (Scan.ofSource policy source).records := by
  rw [problems, records_eq, List.filter_append, List.filter_append,
    List.filter_eq_self.mpr, List.filter_eq_nil_iff.mpr, List.filter_eq_nil_iff.mpr,
    List.append_nil, List.append_nil]
  · rfl
  · intro record hrecord
    simp [stage_of_mem_failures hrecord]
  · intro record hrecord
    simp [Program.stage_of_mem_records hrecord]
  · intro record hrecord
    simp [Scan.stage_of_mem_records hrecord]

end Run

/-! ## Strings without end -/

namespace Segment

private theorem exists_eq_append_of_openString {source content : Bytes}
    (h : .openString content ∈ segments source) :
    ∃ front, segments source = front ++ [.openString content] := by
  have hne : segments source ≠ [] := List.ne_nil_of_mem h
  have hclosed := (tiles_segments source).closed_dropLast
  rw [← List.dropLast_append_getLast hne, List.mem_append, List.mem_singleton] at h
  rcases h with hmem | hlast
  · cases hclosed _ hmem
  · exact ⟨(segments source).dropLast, by rw [hlast, List.dropLast_append_getLast]⟩

end Segment

namespace Grammar

theorem Statement.exists_semicolon {ts : List Token} {stmt : Stmt} (h : Statement ts stmt) :
    ∃ front semicolon, ts = front ++ [semicolon] ∧ semicolon.kind = .semicolon := by
  cases h with
  | print hkeyword value hsemicolon => exact ⟨_, _, rfl, hsemicolon⟩
  | expression value hsemicolon => exact ⟨_, _, rfl, hsemicolon⟩

private theorem Statements.kind_of_getLast? {ts : List Token} {t : Token} {stmts : List Stmt}
    (h : Statements ts stmts) (ht : ts.getLast? = some t) : t.kind = .semicolon := by
  induction h with
  | nil => cases ht
  | cons first rest ih =>
      obtain ⟨front, semicolon, rfl, hsemicolon⟩ := first.exists_semicolon
      rw [List.getLast?_append, Option.or_eq_some_iff] at ht
      rcases ht with hlater | ⟨-, hlast⟩
      · exact ih hlater
      · rw [List.getLast?_concat] at hlast
        cases hlast
        exact hsemicolon

end Grammar

namespace Run

/-- A string that nothing closes is a problem under either policy: no statement ends in it. -/
theorem obstacles_ne_nil_of_openString (policy : Unterminated) {source content : Bytes}
    (h : .openString content ∈ Segment.segments source) : obstacles policy source ≠ [] := by
  rw [ne_eq, obstacles_eq_nil_iff]
  rintro ⟨hrecords, stmts, hstatements⟩
  obtain ⟨front, hfront⟩ := Segment.exists_eq_append_of_openString h
  cases policy with
  | error =>
      have hclosed := Scan.closed_of_records_eq_nil hrecords _ h
      cases hclosed
  | eof =>
      rw [Scan.lexed, Segment.numbered_eq, hfront, Segment.numberedFrom_append,
        List.filterMap_append] at hstatements
      have hkind := hstatements.kind_of_getLast? List.getLast?_concat
      cases hkind

end Run

namespace Runner

theorem on_stdout_script_of_obstacles (s : Setup) (n : Nat) {source : Bytes}
    (h : Run.obstacles s.policy source ≠ []) : (script s n source).on .stdout = [] := by
  have hevaluated : (Run.start s.policy [] .evaluation source {}).evaluated = false := by
    rw [← Bool.not_eq_true, Run.evaluated_start_iff]
    exact h
  have hnone : trailingValue? (Run.start s.policy [] .evaluation source {}) = none := by
    rw [trailingValue?, (Run.of_not_evaluated _ _ _ _ hevaluated).2.1]
    rfl
  rw [on_stdout_script, Run.printed, if_neg h, echoScript, hnone, ite_self]
  rfl

private theorem script_of_scan_eq (s : Setup) (hoff : s.logger.level = .off) {a b : Bytes}
    (h : Scan.ofSource s.policy a = Scan.ofSource s.policy b) (n : Nat) :
    script s n a = script s n b := by
  have hlines (source : Bytes) :=
    Run.lines_of_unlimited s.policy (s.ids.run n) source Console.unlimited_empty
  rw [script, script, s.work_of_off hoff, s.work_of_off hoff, hlines, hlines,
    Run.printed_of_scan_eq h, Run.start_of_scan_eq h]
  rfl

end Runner

/-! ## Lines and what trimming leaves of them -/

section Trim

variable (s : Setup) {line : Bytes} (hline : newline ∉ line)
include hline

section PassesOver

variable (hpasses : Scan.PassesOver line)
include hpasses

theorem Runner.alone_trim
    (hstring : s.policy = .eof → ∀ content,
      .openString content ∈ Segment.segments (Blank.trim line) → Blank.back line = []) :
    (alone s.silenced line).console = (alone s.silenced (Blank.trim line)).console ∧
      Run.problems s.policy line = Run.problems s.policy (Blank.trim line) := by
  have hscan := Scan.ofSource_trim s.policy hline hpasses hstring
  have hscript : script s.silenced 0 line = script s.silenced 0 (Blank.trim line) :=
    script_of_scan_eq s.silenced rfl hscan 0
  refine ⟨?_, Run.problems_of_scan_eq hscan⟩
  rw [alone, alone, run_of_unlimited _ _ _ Console.unlimited_empty,
    run_of_unlimited _ _ _ Console.unlimited_empty]
  dsimp only
  rw [hscript]

private theorem Runner.output_stdout_alone_trim :
    (alone s line).console.output .stdout 0 =
      (alone s (Blank.trim line)).console.output .stdout 0 := by
  rw [output_alone, output_alone]
  by_cases hopen : ∃ content, .openString content ∈ Segment.segments (Blank.trim line)
  · obtain ⟨content, hcontent⟩ := hopen
    obtain ⟨longer, hlonger⟩ := Scan.exists_openString_of_trim hline hcontent
    rw [on_stdout_script_of_obstacles s 0 (Run.obstacles_ne_nil_of_openString _ hlonger),
      on_stdout_script_of_obstacles s 0 (Run.obstacles_ne_nil_of_openString _ hcontent)]
  · have hscan := Scan.ofSource_trim s.policy hline hpasses
      fun _ content hcontent => absurd ⟨content, hcontent⟩ hopen
    rw [on_stdout_script, on_stdout_script, Run.printed_of_scan_eq hscan,
      Run.start_of_scan_eq hscan]
    rfl

end PassesOver

theorem Run.problems_trim_ne (hpasses : ¬Scan.PassesOver line) :
    problems s.policy line ≠ problems s.policy (Blank.trim line) := by
  intro heq
  have hscan := congrArg (List.filter fun r => r.stage == .scan) heq
  rw [filter_scan_problems, filter_scan_problems] at hscan
  have hlength := Scan.length_records_trim_lt s.policy hline hpasses
  rw [hscan] at hlength
  exact Nat.lt_irrefl _ hlength

end Trim

/-! ## Conversations and screens -/

namespace Screen

variable (s : Setup) (d : Dialogue)

/--
A conversation and a screen take a line alike: both end, both pass over it, or
both run it.  The screen runs what trimming leaves of it.  If the scanner passes
over the white space around the line, that prints the same, and it reports the
same as long as the end of input does not close a string behind white space.  If
the scanner does not pass over it, the conversation finds other problems.
-/
theorem submit_agrees (source : LineSource) {line : Bytes} (rest : List Bytes) (t : Tally)
    {c : Console} (m : Screen) (hline : newline ∉ line) (hc : c.Unlimited)
    (hm : m.captured = {}) :
    ∃ (core : Bytes) (prompted : Console) (asked : Conversation) (shown : Screen),
      core = Blank.trim line ∧ prompted = c.write .prompt d.prompt ∧
      asked = Conversation.proceed s d source (line :: rest) t c ∧
      shown = m.submit s d line ∧
      (core = d.exitCommand →
        asked = ⟨t, none, prompted⟩ ∧ shown = { m with field := {}, quitting := true }) ∧
      (core ≠ d.exitCommand → core = [] →
        asked = Conversation.proceed s d source rest t prompted ∧
          shown = { m with field := {} }) ∧
      (core ≠ d.exitCommand → core ≠ [] →
        (asked = Conversation.proceed s d source rest
          (Conversation.counted s t [line]) (prompted.perform (Runner.script s t.runs line)) ∧
        shown.lines = m.lines ++ block s d core ∧
        shown.problems = (Run.problems s.policy core).length) ∧
        (Scan.PassesOver line →
          (Runner.alone s line).console.output .stdout 0 =
            (Runner.alone s core).console.output .stdout 0 ∧
          ((s.policy = .eof → ∀ content, .openString content ∈ Segment.segments core →
            Blank.back line = []) →
          (Runner.alone s.silenced line).console = (Runner.alone s.silenced core).console ∧
            Run.problems s.policy line = Run.problems s.policy core)) ∧
        (¬Scan.PassesOver line →
          Run.problems s.policy line ≠ Run.problems s.policy core)) := by
  refine ⟨_, _, _, _, rfl, rfl, rfl, rfl, ?_, ?_, ?_⟩
  · intro hexit
    have hturn := Dialogue.turn_eq_leave_iff.mpr hexit
    simp [Conversation.proceed, submit, hturn, hc.accepts]
  · intro hexit hblank
    have hturn : d.turn line = .skip := Dialogue.turn_eq_skip_iff.mpr ⟨hexit, hblank⟩
    simp [Conversation.proceed, submit, hturn, hc.accepts]
  · intro hexit hblank
    have hturn : d.turn line = .run := Dialogue.turn_eq_run_iff.mpr ⟨hexit, hblank⟩
    have hprompted := hc.write .prompt d.prompt
    refine ⟨⟨?_, ?_, ?_⟩, fun hpasses => ⟨Runner.output_stdout_alone_trim s hline hpasses,
      Runner.alone_trim s hline hpasses⟩, Run.problems_trim_ne s hline⟩
    · simp only [Conversation.proceed, hc.accepts, hturn, if_true,
        Runner.run_of_unlimited s line t hprompted, Runner.count_of_unlimited _ _ _ _ hprompted]
      rw [Conversation.counted_cons]
      rfl
    · simp [submit, hturn, execute_of_empty, hm, toBottom]
    · simp [submit, hturn, execute_of_empty, hm, toBottom]

/-- A tab in front, and behind the line a comment that takes the no-break space in. -/
theorem submit_agrees_on_comment :
    ∃ (s : Setup) (line core : Bytes),
      s = { ids := ⟨[], fun _ => []⟩ } ∧ line = utf8 "\tprint 1; // one\u00a0" ∧
      core = utf8 "print 1; // one" ∧
      ((opened s {}).submit s {} line).lines = (opened s {}).lines ++ block s {} core ∧
      (Runner.alone s.silenced line).console = (Runner.alone s.silenced core).console ∧
      (Runner.alone s.silenced line).console.output .stdout 0 = utf8 "1\n" := by
  have hline : newline ∉ utf8 "\tprint 1; // one\u00a0" := by decide
  obtain ⟨core, prompted, asked, shown, hcore, -, -, hshown, -, -, hrun⟩ :=
    submit_agrees { ids := ⟨[], fun _ => []⟩ } {} (.ofStream []) [] {}
      (opened { ids := ⟨[], fun _ => []⟩ } {}) hline Console.unlimited_empty rfl
  have hsame : core = utf8 "print 1; // one" := by
    rw [hcore]
    decide +kernel
  have hpasses : Scan.PassesOver (utf8 "\tprint 1; // one\u00a0") :=
    ⟨by decide +kernel, .inr (by decide +kernel)⟩
  obtain ⟨⟨-, hlines, -⟩, hagree, -⟩ :=
    hrun (by rw [hsame]; decide) (by rw [hsame]; decide)
  refine ⟨_, _, core, rfl, rfl, hsame, hshown ▸ hlines, ((hagree hpasses).2 ?_).1, ?_⟩
  · exact fun heof => by cases heof
  · decide +kernel

/--
A no-break space in front of a line: the conversation reports it, and the
screen runs the line without it.
-/
theorem submit_disagrees_on_no_break_space :
    ∃ (s : Setup) (line : Bytes) (asked : Conversation) (shown : Screen),
      s = { ids := ⟨[], fun _ => []⟩ } ∧ line = utf8 "\u00a0print 1;" ∧ newline ∉ line ∧
      asked = Conversation.start s {} (.ofStream (line ++ [newline])) false {} ∧
      shown = (opened s {}).submit s {} line ∧
      asked.console.output .stdout 0 = [] ∧
      asked.console.output .stderr 0 = utf8 "[line 1] Error: Unexpected character.\n" ∧
      shown.lines.drop 1 = [⟨.input, utf8 "> print 1;"⟩, ⟨.output, utf8 "1"⟩] := by
  refine ⟨_, _, _, _, rfl, rfl, by decide, rfl, rfl, ?_, ?_, ?_⟩ <;> decide +kernel

/-- The end of input closes a string behind the white space that trimming takes off. -/
example :
    Run.problems .eof (utf8 "1 \"abc  ") ≠
      Run.problems .eof (Blank.trim (utf8 "1 \"abc  ")) := by
  decide +kernel

end Screen

end Scriptlet
