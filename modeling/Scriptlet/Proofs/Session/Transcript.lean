import Scriptlet.Proofs.Session.Unlimited
import Scriptlet.Session.Conversation

/-!
# Transcripts of conversations

If nothing is refused, a conversation follows a script: a prompt a line, and
behind it what the line writes alone (`proceed_of_unlimited`).  Whatever is
refused, only the last round of a conversation holds a refusal, and it is the
fault that ends it (`exists_rounds`).
-/

namespace Scriptlet

/-! ## Which lines are run -/

namespace Dialogue

variable (d : Dialogue)

def IsUnit (line : Bytes) : Prop :=
  Blank.trim line ≠ d.exitCommand ∧ Blank.trim line ≠ []

instance (line : Bytes) : Decidable (d.IsUnit line) :=
  inferInstanceAs (Decidable (_ ∧ _))

/-- The lines before the first exit command. -/
def heard (lines : List Bytes) : List Bytes :=
  lines.takeWhile fun line => Blank.trim line != d.exitCommand

def units (lines : List Bytes) : List Bytes :=
  (d.heard lines).filter fun line => !(Blank.trim line).isEmpty

@[simp] theorem heard_nil : d.heard [] = [] := rfl

variable {d} {line : Bytes} {lines : List Bytes}

theorem turn_eq_leave_iff : d.turn line = .leave ↔ Blank.trim line = d.exitCommand := by
  by_cases hexit : Blank.trim line = d.exitCommand
  · simp [turn, hexit]
  · cases hempty : (Blank.trim line).isEmpty <;> simp [turn, hexit, hempty]

theorem turn_eq_skip_iff :
    d.turn line = .skip ↔ Blank.trim line ≠ d.exitCommand ∧ Blank.trim line = [] := by
  by_cases hexit : Blank.trim line = d.exitCommand
  · simp [turn, hexit]
  · rw [← List.isEmpty_iff]
    cases hempty : (Blank.trim line).isEmpty <;> simp [turn, hexit, hempty]

theorem turn_eq_run_iff : d.turn line = .run ↔ d.IsUnit line := by
  by_cases hexit : Blank.trim line = d.exitCommand
  · simp [turn, IsUnit, hexit]
  · rw [IsUnit, ne_eq, ne_eq, ← List.isEmpty_iff]
    cases hempty : (Blank.trim line).isEmpty <;> simp [turn, hexit, hempty]

theorem heard_of_leave (h : d.turn line = .leave) : d.heard (line :: lines) = [] := by
  rw [turn_eq_leave_iff] at h
  simp [heard, h]

theorem heard_of_ne_leave (h : d.turn line ≠ .leave) :
    d.heard (line :: lines) = line :: d.heard lines := by
  rw [ne_eq, turn_eq_leave_iff] at h
  simp [heard, h]

theorem heard_of_skip (h : d.turn line = .skip) :
    d.heard (line :: lines) = line :: d.heard lines :=
  heard_of_ne_leave (by simp [h])

theorem heard_of_run (h : d.turn line = .run) :
    d.heard (line :: lines) = line :: d.heard lines :=
  heard_of_ne_leave (by simp [h])

theorem units_of_leave (h : d.turn line = .leave) : d.units (line :: lines) = [] := by
  rw [units, heard_of_leave h]
  rfl

theorem units_of_skip (h : d.turn line = .skip) :
    d.units (line :: lines) = d.units lines := by
  rw [units, heard_of_skip h, units]
  simp [(turn_eq_skip_iff.mp h).2]

theorem units_of_run (h : d.turn line = .run) :
    d.units (line :: lines) = line :: d.units lines := by
  have hblank := (turn_eq_run_iff.mp h).2
  rw [units, heard_of_run h, units]
  simp [hblank]

end Dialogue

/-! ## Conversations whose writes are all accepted -/

namespace Conversation

section Unlimited

variable (s : Setup) (d : Dialogue) (source : LineSource)

/-- What is written for the lines that are left when `n` units were run, if nothing is refused. -/
def script : (n : Nat) → (lines : List Bytes) → Script
  | _, [] =>
    (.prompt, d.prompt) :: if source.breaksLine then [(.prompt, [newline])] else []
  | n, line :: rest =>
    (.prompt, d.prompt) ::
      match d.turn line with
      | .leave => []
      | .skip => script n rest
      | .run => Runner.script s n line ++ script (n + 1) rest

def counted (t : Tally) (units : List Bytes) : Tally :=
  ⟨t.runs + units.length,
    t.failed + units.countP fun unit => !(Run.problems s.policy unit).isEmpty⟩

theorem counted_cons (t : Tally) (unit : Bytes) (units : List Bytes) :
    counted s t (unit :: units) =
      counted s ⟨t.runs + 1, if Run.problems s.policy unit = [] then t.failed
        else t.failed + 1⟩ units := by
  rw [counted, counted, List.length_cons, List.countP_cons]
  by_cases hclean : Run.problems s.policy unit = []
  · simp [hclean]
    omega
  · simp [hclean]
    omega

theorem proceed_of_unlimited (lines : List Bytes) (t : Tally) {c : Console}
    (hc : c.Unlimited) :
    proceed s d source lines t c =
      ⟨counted s t (d.units lines), if d.heard lines = lines then source.ending else none,
        c.perform (script s d source t.runs lines)⟩ := by
  induction lines generalizing t c with
  | nil =>
      rw [proceed, if_pos (hc.accepts .prompt), script, Console.perform_cons]
      cases source.breaksLine <;> rfl
  | cons line rest ih =>
      have hprompted := hc.write .prompt d.prompt
      rw [proceed, if_pos (hc.accepts .prompt), script, Console.perform_cons]
      cases hturn : d.turn line with
      | leave =>
          simp [d.heard_of_leave hturn, d.units_of_leave hturn, counted, Console.perform]
      | skip =>
          simp only [d.units_of_skip hturn, d.heard_of_skip hturn, List.cons.injEq, true_and]
          exact ih t hprompted
      | run =>
          simp only [d.units_of_run hturn, d.heard_of_run hturn, List.cons.injEq, true_and,
            Runner.run_of_unlimited s line t hprompted,
            Runner.count_of_unlimited _ _ _ t hprompted, counted_cons, Console.perform_append]
          exact ih _ (hprompted.perform _)

/-! ### Streams -/

theorem on_prompt_script (n : Nat) (lines : List Bytes) :
    (script s d source n lines).on .prompt =
      (List.replicate ((d.heard lines).length + 1) d.prompt).flatten ++
        if d.heard lines = lines ∧ source.breaksLine = true then [newline] else [] := by
  induction lines generalizing n with
  | nil =>
      rw [script, Script.on_cons_self]
      cases source.breaksLine <;> simp [Script.on]
  | cons line rest ih =>
      rw [script, Script.on_cons_self]
      cases hturn : d.turn line with
      | leave => simp [d.heard_of_leave hturn]
      | skip =>
          simp only [d.heard_of_skip hturn, ih, List.length_cons, List.cons.injEq, true_and]
          simp [List.replicate_succ]
      | run =>
          simp only [d.heard_of_run hturn, Script.on_append, Runner.on_prompt_script, ih,
            List.nil_append, List.length_cons, List.cons.injEq, true_and]
          simp [List.replicate_succ]

theorem on_script {stream : Stream} (h : stream ≠ .prompt) (n : Nat) (lines : List Bytes) :
    (script s d source n lines).on stream =
      ((d.units lines).zipIdx n).flatMap fun unit =>
        (Runner.script s unit.2 unit.1).on stream := by
  induction lines generalizing n with
  | nil =>
      rw [script, Script.on_cons_of_ne h.symm]
      split
      · exact Script.on_cons_of_ne h.symm _ _
      · rfl
  | cons line rest ih =>
      rw [script, Script.on_cons_of_ne h.symm]
      cases hturn : d.turn line with
      | leave => simp [d.units_of_leave hturn]
      | skip => simp only [d.units_of_skip hturn, ih]
      | run =>
          simp only [d.units_of_run hturn, Script.on_append, ih, List.zipIdx_cons,
            List.flatMap_cons]

end Unlimited

end Conversation

/-! ## Conversations with refused writes -/

namespace Runner.Attempted

variable {s : Setup} {source : Bytes} {t : Tally} {c : Console} {r : Run}
  {working printed logged echoed : List Write}
  (h : Attempted s source t c r working printed logged echoed)
include h

theorem tally : (run s source t c).tally = t.count r := by
  rw [h.finished, finish]
  split <;> rfl

theorem code {f : Fault} (hf : (run s source t c).fault = some f) :
    f.code = Code.inputOutput := by
  rw [h.finished] at hf
  exact code_of_fault_finish s r t _ hf

end Runner.Attempted

theorem LineSource.code_failure (cause : Bytes) (message : String) :
    (LineSource.failure cause message).code = Code.inputOutput := rfl

namespace Conversation

section Refused

variable (s : Setup) (d : Dialogue)

/--
A round: the prompt, and what becomes of the line that is next, if one is left.
The writes are all that the round attempts outside the log.
-/
inductive Round (t : Tally) (c : Console) :
    (next : Option Bytes) → List Write → Tally → Console → Prop
  | refused {next : Option Bytes} (hprompt : c.accepts .prompt = false) :
      Round t c next [⟨.prompt, d.prompt, false⟩] t (c.write .prompt d.prompt)
  | idle {next : Option Bytes} (hprompt : c.accepts .prompt = true)
      (hturn : ∀ line ∈ next, d.turn line ≠ .run) :
      Round t c next [⟨.prompt, d.prompt, true⟩] t (c.write .prompt d.prompt)
  | unit {line : Bytes} {r : Run} {working printed logged echoed : List Write}
      (hprompt : c.accepts .prompt = true) (hturn : d.turn line = .run)
      (hunit : Runner.Attempted s line t (c.write .prompt d.prompt) r working printed logged
        echoed) :
      Round t c (some line)
        (⟨.prompt, d.prompt, true⟩ ::
          (printed ++ Runner.reported s r (c.write .prompt d.prompt) ++ echoed))
        (t.count r) (Runner.run s line t (c.write .prompt d.prompt)).console

/-- Rounds that read the given lines, none of which is the exit command, without a refusal. -/
inductive Rounds : (lines : List Bytes) → Tally → Console → Tally → Console → Prop
  | nil (t : Tally) (c : Console) : Rounds [] t c t c
  | cons {line : Bytes} {lines : List Bytes} {tried : List Write} {t t' t'' : Tally}
      {c c' c'' : Console} (hturn : d.turn line ≠ .leave)
      (first : Round s d t c (some line) tried t' c') (haccepted : ∀ w ∈ tried, w.accepted = true)
      (rest : Rounds lines t' c' t'' c'') : Rounds (line :: lines) t c t'' c''

variable {s d} {t t' : Tally} {c c' : Console}

private theorem Round.runs_of_accepted {line : Bytes} {tried : List Write}
    (h : Round s d t c (some line) tried t' c') (haccepted : ∀ w ∈ tried, w.accepted = true) :
    t'.runs = t.runs + if d.turn line = .run then 1 else 0 := by
  cases h with
  | refused _ => simp at haccepted
  | idle _ hturn => simp [hturn line rfl]
  | unit _ hturn _ => simp [hturn, Tally.count]

theorem Rounds.runs {lines : List Bytes} (h : Rounds s d lines t c t' c') :
    t'.runs = t.runs + (d.units lines).length := by
  induction h with
  | nil => rfl
  | cons hturn first haccepted rest ih =>
      rename_i line lines _ _ _ _ _ _ _
      rw [ih, first.runs_of_accepted haccepted]
      cases hline : d.turn line with
      | leave => exact absurd hline hturn
      | skip => simp [d.units_of_skip hline]
      | run =>
          simp [d.units_of_run hline]
          omega

variable (s d)

/--
Whatever is refused, a conversation goes through rounds without a refusal and
then through a last one.  If that one holds a refusal, the conversation ends
there with a fault of input or output; if not, no line was left or it was the
exit command.
-/
theorem exists_rounds (source : LineSource) (lines : List Bytes) (t : Tally) (c : Console) :
    ∃ (read unread : List Bytes) (tried : List Write) (t' t'' : Tally) (c' c'' : Console),
      lines = read ++ unread ∧ Rounds s d read t c t' c' ∧
      Round s d t' c' unread.head? tried t'' c'' ∧
      (proceed s d source lines t c).tally = t'' ∧
      ((∀ w ∈ tried, w.accepted = true) →
        (proceed s d source lines t c).fault = (if unread = [] then source.ending else none) ∧
          ∀ line ∈ unread.head?, d.turn line = .leave) ∧
      ((∃ w ∈ tried, w.accepted = false) →
        (∃ f, (proceed s d source lines t c).fault = some f ∧ f.code = Code.inputOutput) ∧
          (proceed s d source lines t c).console = c'') := by
  induction lines generalizing t c with
  | nil =>
      cases hprompt : c.accepts .prompt with
      | false =>
          refine ⟨[], [], _, t, _, c, _, rfl, .nil t c, .refused hprompt, ?_⟩
          simp [proceed, hprompt, LineSource.promptRefused, LineSource.code_failure]
      | true =>
          refine ⟨[], [], _, t, _, c, _, rfl, .nil t c, .idle hprompt (by simp), ?_⟩
          simp [proceed, hprompt]
  | cons line rest ih =>
      cases hprompt : c.accepts .prompt with
      | false =>
          refine ⟨[], line :: rest, _, t, _, c, _, rfl, .nil t c, .refused hprompt, ?_⟩
          simp [proceed, hprompt, LineSource.promptRefused, LineSource.code_failure]
      | true =>
          cases hturn : d.turn line with
          | leave =>
              refine ⟨[], line :: rest, _, t, _, c, _, rfl, .nil t c,
                .idle hprompt (by simp [hturn]), ?_⟩
              simp [proceed, hprompt, hturn]
          | skip =>
              have hproceed : proceed s d source (line :: rest) t c =
                  proceed s d source rest t (c.write .prompt d.prompt) := by
                simp [proceed, hprompt, hturn]
              have hfirst : Round s d t c (some line) _ _ _ :=
                .idle hprompt (by simp [hturn])
              obtain ⟨read, unread, tried, t', t'', c', c'', rfl, hrounds, hrest⟩ :=
                ih t (c.write .prompt d.prompt)
              rw [hproceed]
              exact ⟨line :: read, unread, tried, t', t'', c', c'', rfl,
                .cons (by simp [hturn]) hfirst (by simp) hrounds, hrest⟩
          | run =>
              obtain ⟨r, working, printed, logged, echoed, hunit⟩ :=
                Runner.exists_attempted s line t (c.write .prompt d.prompt)
              have hround := Round.unit hprompt hturn hunit
              cases hfault : (Runner.run s line t (c.write .prompt d.prompt)).fault with
              | some f =>
                  -- a unit with a refusal is the last round
                  have haccepted := mt hunit.fault_iff.mpr (by simp [hfault])
                  refine ⟨[], line :: rest, _, t, _, c, _, rfl, .nil t c, hround, ?_⟩
                  simp only [proceed, hprompt, hturn, hfault, if_true, hunit.tally, true_and]
                  refine ⟨fun hall => ?_, fun _ => ⟨⟨f, rfl, hunit.code hfault⟩, trivial⟩⟩
                  exact absurd (List.forall_mem_cons.mp hall).2 haccepted
              | none =>
                  have haccepted := hunit.fault_iff.mp hfault
                  have hproceed : proceed s d source (line :: rest) t c =
                      proceed s d source rest (t.count r)
                        (Runner.run s line t (c.write .prompt d.prompt)).console := by
                    simp only [proceed, hprompt, hturn, hfault, if_true, hunit.tally]
                  obtain ⟨read, unread, tried, t', t'', c', c'', rfl, hrounds, hrest⟩ :=
                    ih (t.count r) (Runner.run s line t (c.write .prompt d.prompt)).console
                  rw [hproceed]
                  exact ⟨line :: read, unread, tried, t', t'', c', c'', rfl,
                    .cons (by simp [hturn]) hround (List.forall_mem_cons.mpr ⟨rfl, haccepted⟩)
                      hrounds, hrest⟩

end Refused

end Conversation

/-! ## Conversations over an input stream -/

namespace LineSource

variable {input : Bytes}

private theorem ofStream_of_short (h : ∀ line ∈ rawLines input, line.length < lineLimit) :
    ofStream input = ⟨(rawLines input).map dropReturn, none, true⟩ := by
  have hshort : (rawLines input).takeWhile (fun line => decide (line.length < lineLimit)) =
      rawLines input := by
    rw [List.takeWhile_eq_self_iff]
    simpa using h
  simp [ofStream, hshort]

theorem rawLines_of_single {line : Bytes} (h : newline ∉ line) :
    rawLines (line ++ [newline]) = [line] := by
  have hpieces : Bytes.pieces (line ++ [newline]) = [line, []] := by
    have hsplit := List.splitOnP_append_cons (p := fun b => b == newline) line []
      (beq_self_eq_true newline)
    exact hsplit.trans (by rw [← List.splitOn, List.splitOn_eq_singleton h]; rfl)
  rw [rawLines, hpieces]
  rfl

private theorem ofStream_of_long {line : Bytes} (hnewline : newline ∉ line)
    (hlong : lineLimit ≤ line.length) :
    ofStream (line ++ [newline]) = ⟨[], some tooLong, true⟩ := by
  have hdecide : decide (line.length < lineLimit) = false :=
    decide_eq_false (Nat.not_lt.mpr hlong)
  simp [ofStream, rawLines_of_single hnewline, hdecide]

end LineSource

namespace Conversation

section Start

variable (s : Setup) (d : Dialogue)

theorem note_eq_perform (events : List Event) (c : Console) :
    s.note events c = c.perform (.ofContents .stderr (s.logger.lines s.time events)) :=
  c.writeAll_eq_perform .stderr _

def fullScript (source : LineSource) : Script :=
  .ofContents .stderr (s.logger.lines s.time [startEvent s])
    ++ script s d source 0 source.lines
    ++ .ofContents .stderr
      (s.logger.lines s.time [endEvent (counted s {} (d.units source.lines))])

theorem start_of_unlimited (source : LineSource) {c : Console} (hc : c.Unlimited) :
    start s d source false c =
      ⟨counted s {} (d.units source.lines),
        if d.heard source.lines = source.lines then source.ending else none,
        c.perform (fullScript s d source)⟩ := by
  have hstarted : (s.note [startEvent s] c).Unlimited := by
    rw [note_eq_perform]
    exact hc.perform _
  rw [start, if_neg Bool.false_ne_true, proceed_of_unlimited s d source _ _ hstarted,
    fullScript, Console.perform_append, Console.perform_append, note_eq_perform,
    note_eq_perform]

private theorem start_eq (source : LineSource) (c : Console) :
    start s d source false c =
      { proceed s d source source.lines {} (s.note [startEvent s] c) with
        console := s.note
          [endEvent (proceed s d source source.lines {} (s.note [startEvent s] c)).tally]
          (proceed s d source source.lines {} (s.note [startEvent s] c)).console } := rfl

variable (source : LineSource)

private theorem on_prompt_fullScript :
    (fullScript s d source).on .prompt = (script s d source 0 source.lines).on .prompt := by
  have hstderr : Stream.stderr ≠ .prompt := by decide
  rw [fullScript, Script.on_append, Script.on_append, Script.on_ofContents_of_ne hstderr,
    Script.on_ofContents_of_ne hstderr, List.nil_append, List.append_nil]

private theorem on_stdout_fullScript :
    (fullScript s d source).on .stdout =
      (d.units source.lines).flatMap fun unit =>
        (Runner.alone s unit).console.output .stdout 0 := by
  have hstderr : Stream.stderr ≠ .stdout := by decide
  rw [fullScript, Script.on_append, Script.on_append, Script.on_ofContents_of_ne hstderr,
    Script.on_ofContents_of_ne hstderr, List.nil_append, List.append_nil,
    on_script s d source (by decide)]
  simp only [← Runner.output_stdout_alone]
  conv_rhs => rw [← List.zipIdx_map_fst 0 (d.units source.lines), List.flatMap_map]

private theorem on_stderr_fullScript :
    (fullScript s d source).on .stderr =
      (s.logger.lines s.time [startEvent s]).flatten
        ++ ((d.units source.lines).zipIdx.flatMap fun unit =>
          (Runner.alone (s.numbered unit.2) unit.1).console.output .stderr 0)
        ++ (s.logger.lines s.time [endEvent (counted s {} (d.units source.lines))]).flatten := by
  rw [fullScript, Script.on_append, Script.on_append, Script.on_ofContents_self,
    Script.on_ofContents_self, on_script s d source (by decide)]
  simp only [Runner.output_alone_numbered]

private theorem on_stderr_fullScript_of_off (h : s.logger.level = .off) :
    (fullScript s d source).on .stderr =
      (d.units source.lines).flatMap fun unit =>
        (Runner.alone s unit).console.output .stderr 0 := by
  rw [fullScript, Logger.lines_of_off h, Logger.lines_of_off h, Script.on_append,
    Script.on_append, Script.on_ofContents_self, List.flatten_nil, List.nil_append,
    List.append_nil, on_script s d source (by decide)]
  simp only [Runner.script_of_off s _ _ h, ← Runner.output_alone]
  conv_rhs => rw [← List.zipIdx_map_fst 0 (d.units source.lines), List.flatMap_map]

/--
A conversation over an input stream whose lines, with the carriage returns
that end them, are short enough.  If nothing is refused, it runs the lines
before the exit command that are not blank, each as if it were alone, and
prompts once a line and once more at the end of the input.  Otherwise the
round with the first refusal is the last one.
-/
theorem start_transcript (s : Setup) (d : Dialogue) (input : Bytes) (c : Console)
    (hlines : ∀ line ∈ LineSource.rawLines input, line.length < LineSource.lineLimit) :
    ∃ (lines units : List Bytes) (result : Conversation),
      lines = (LineSource.rawLines input).map LineSource.dropReturn ∧ units = d.units lines ∧
      result = start s d (.ofStream input) false c ∧
      (c.Unlimited →
        result.fault = none ∧ result.tally.runs = units.length ∧
        result.tally.failed =
          units.countP (fun unit => !(Run.problems s.policy unit).isEmpty) ∧
        result.console.output .prompt c.writes.size =
          (List.replicate ((d.heard lines).length + 1) d.prompt).flatten
            ++ (if d.heard lines = lines then [newline] else []) ∧
        result.console.output .stdout c.writes.size =
          (units.flatMap fun unit => (Runner.alone s unit).console.output .stdout 0) ∧
        result.console.output .stderr c.writes.size =
          (s.logger.lines s.time [startEvent s]).flatten
            ++ (units.zipIdx.flatMap fun unit =>
              (Runner.alone (s.numbered unit.2) unit.1).console.output .stderr 0)
            ++ (s.logger.lines s.time [endEvent result.tally]).flatten ∧
        (s.logger.level = .off →
          result.console.output .stderr c.writes.size =
            units.flatMap fun unit => (Runner.alone s unit).console.output .stderr 0)) ∧
      ∃ (read unread : List Bytes) (tried : List Write) (t' t'' : Tally) (c' c'' : Console),
        lines = read ++ unread ∧ Rounds s d read {} (s.note [startEvent s] c) t' c' ∧
        t'.runs = (d.units read).length ∧
        Round s d t' c' unread.head? tried t'' c'' ∧ result.tally = t'' ∧
        ((∀ w ∈ tried, w.accepted = true) →
          result.fault = none ∧ ∀ line ∈ unread.head?, d.turn line = .leave) ∧
        ((∃ w ∈ tried, w.accepted = false) →
          (∃ f, result.fault = some f ∧ f.code = Code.inputOutput) ∧
            result.console = s.note [endEvent t''] c'') := by
  have hsource := LineSource.ofStream_of_short hlines
  have hending : (LineSource.ofStream input).ending = none := by rw [hsource]
  refine ⟨(LineSource.ofStream input).lines, _, _, by rw [hsource], rfl, rfl, ?_, ?_⟩
  · intro hc
    have houtput := Console.output_perform hc (fullScript s d (.ofStream input))
    rw [start_of_unlimited s d _ hc, hending]
    refine ⟨ite_self _, Nat.zero_add _, Nat.zero_add _, ?_, ?_, ?_, fun hoff => ?_⟩
    · have hbreaks : (LineSource.ofStream input).breaksLine = true := by rw [hsource]
      rw [houtput, on_prompt_fullScript, on_prompt_script]
      simp [hbreaks]
    · exact (houtput _).trans (on_stdout_fullScript s d _)
    · exact (houtput _).trans (on_stderr_fullScript s d _)
    · exact (houtput _).trans (on_stderr_fullScript_of_off s d _ hoff)
  · obtain ⟨read, unread, tried, t', t'', c', c'', hread, hrounds, hround, htally, hrest⟩ :=
      exists_rounds s d (.ofStream input) (LineSource.ofStream input).lines {}
        (s.note [startEvent s] c)
    refine ⟨read, unread, tried, t', t'', c', c'', hread, hrounds, ?_, hround, htally, ?_, ?_⟩
    · rw [hrounds.runs]
      exact Nat.zero_add _
    · intro haccepted
      obtain ⟨hfault, hleave⟩ := hrest.1 haccepted
      rw [hending, ite_self] at hfault
      exact ⟨hfault, hleave⟩
    · intro hrefused
      obtain ⟨hfault, hconsole⟩ := hrest.2 hrefused
      refine ⟨hfault, ?_⟩
      rw [start_eq, htally, hconsole]

/-- Four lines are read: one is run, one is blank, one fails and one is the exit command. -/
theorem start_transcript_until_exit :
    ∃ (s : Setup) (result : Conversation),
      s = { ids := ⟨[], fun _ => []⟩ } ∧
      result = start s {} (.ofStream (utf8 "print 1;\n \n-nil;\n exit\r\nprint 2;\n")) false {} ∧
      result.fault = none ∧ result.tally = ⟨2, 1⟩ ∧
      result.console.output .prompt 0 = utf8 "> > > > " ∧
      result.console.output .stdout 0 = utf8 "1\n" := by
  obtain ⟨lines, units, result, hlines, hunits, hresult, hunlimited, -⟩ :=
    start_transcript { ids := ⟨[], fun _ => []⟩ } {}
      (utf8 "print 1;\n \n-nil;\n exit\r\nprint 2;\n") {} (by decide +kernel)
  obtain ⟨hfault, hruns, hfailed, hprompt, hstdout, -⟩ := hunlimited Console.unlimited_empty
  have hheard : ({} : Dialogue).heard lines = [utf8 "print 1;", utf8 " ", utf8 "-nil;"] := by
    rw [hlines]
    decide +kernel
  have hleft : ({} : Dialogue).heard lines ≠ lines := by
    rw [hlines]
    decide +kernel
  have hrun : units = [utf8 "print 1;", utf8 "-nil;"] := by
    rw [hunits, Dialogue.units, hheard]
    decide +kernel
  refine ⟨_, result, rfl, hresult, hfault, ?_, ?_, ?_⟩
  · rw [hrun] at hruns hfailed
    exact congrArg₂ Tally.mk hruns (hfailed.trans (by decide +kernel))
  · rw [if_neg hleft, hheard] at hprompt
    exact hprompt
  · rw [hrun] at hstdout
    exact hstdout.trans (by decide +kernel)

private theorem start_of_long_return {line : Bytes} (hnewline : newline ∉ line)
    (hlength : line.length + 1 = LineSource.lineLimit) :
    (LineSource.rawLines (line ++ [0x0D, newline])).map LineSource.dropReturn = [line] ∧
      (start s d (.ofStream (line ++ [0x0D, newline])) false {}).fault =
        some LineSource.tooLong := by
  have hinput : line ++ [0x0D, newline] = (line ++ [0x0D]) ++ [newline] :=
    List.append_cons line 0x0D [newline]
  have hreturned : newline ∉ line ++ [0x0D] := by
    simpa [newline] using hnewline
  have hlong : LineSource.lineLimit ≤ (line ++ [0x0D]).length := by
    rw [List.length_append]
    exact hlength.ge
  constructor
  · rw [hinput, LineSource.rawLines_of_single hreturned]
    simp [LineSource.dropReturn]
  · rw [hinput, LineSource.ofStream_of_long hreturned hlong,
      start_of_unlimited _ _ _ Console.unlimited_empty]
    rfl

/--
The carriage return behind a line counts: without it this line is short
enough, and with it the conversation ends with a fault.
-/
theorem start_return_too_long :
    ∃ (s : Setup) (spaces input : Bytes) (result : Conversation),
      s = { ids := ⟨[], fun _ => []⟩ } ∧
      spaces = List.replicate (LineSource.lineLimit - 1) 0x20 ∧
      input = spaces ++ [0x0D, newline] ∧
      (LineSource.rawLines input).map LineSource.dropReturn = [spaces] ∧
      spaces.length < LineSource.lineLimit ∧
      result = start s {} (.ofStream input) false {} ∧
      result.fault = some LineSource.tooLong := by
  obtain ⟨spaces, hspaces⟩ : ∃ spaces : Bytes,
      spaces = List.replicate (LineSource.lineLimit - 1) 0x20 := ⟨_, rfl⟩
  have hlength : spaces.length + 1 = LineSource.lineLimit := by
    rw [hspaces, List.length_replicate]
    exact Nat.sub_add_cancel (by decide)
  have hnewline : newline ∉ spaces := by
    rw [hspaces]
    exact fun h => absurd (List.eq_of_mem_replicate h) (by decide)
  obtain ⟨hlines, hfault⟩ :=
    start_of_long_return { ids := ⟨[], fun _ => []⟩ } {} hnewline hlength
  exact ⟨_, spaces, _, _, rfl, hspaces, rfl, hlines, by omega, rfl, hfault⟩

end Start

end Conversation

end Scriptlet
