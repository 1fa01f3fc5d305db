import Scriptlet.Proofs.Run.Composition
import Scriptlet.Proofs.Session.Refusals

/-!
# Units whose writes are all accepted

On a console without limits a unit follows a script that is fixed beforehand:
it does not depend on what the console holds, nor on the units before it but
for the identifier that the log gives the run (`run_of_unlimited`).
-/

namespace Scriptlet

/-! ## Scripts -/

namespace Script

def on (stream : Stream) (script : Script) : Bytes :=
  (script.filter fun entry => entry.1 == stream).flatMap Prod.snd

def ofContents (stream : Stream) (contents : List Bytes) : Script := contents.map (stream, ·)

variable {stream other : Stream}

@[simp] theorem on_nil (stream : Stream) : on stream [] = [] := rfl

@[simp] theorem on_append (stream : Stream) (front back : Script) :
    on stream (front ++ back) = on stream front ++ on stream back := by
  rw [on, List.filter_append, List.flatMap_append]
  rfl

theorem on_cons_self (stream : Stream) (content : Bytes) (script : Script) :
    on stream ((stream, content) :: script) = content ++ on stream script := by
  simp [on]

theorem on_cons_of_ne (h : other ≠ stream) (content : Bytes) (script : Script) :
    on stream ((other, content) :: script) = on stream script := by
  simp [on, h]

@[simp] theorem on_ofContents_self (stream : Stream) (contents : List Bytes) :
    on stream (ofContents stream contents) = contents.flatten := by
  induction contents with
  | nil => rfl
  | cons content contents ih =>
      rw [ofContents, List.map_cons, ← ofContents, on_cons_self, ih, List.flatten_cons]

theorem on_ofContents_of_ne (h : other ≠ stream) (contents : List Bytes) :
    on stream (ofContents other contents) = [] := by
  induction contents with
  | nil => rfl
  | cons content contents ih => rw [ofContents, List.map_cons, ← ofContents, on_cons_of_ne h, ih]

end Script

namespace Console

def Unlimited (c : Console) : Prop := ∀ stream, c.limit stream = none

theorem unlimited_empty : ({} : Console).Unlimited := fun _ => rfl

theorem perform_cons (c : Console) (stream : Stream) (content : Bytes) (script : Script) :
    c.perform ((stream, content) :: script) = (c.write stream content).perform script := rfl

theorem perform_append (c : Console) (front back : Script) :
    c.perform (front ++ back) = (c.perform front).perform back :=
  List.foldl_append

variable {c : Console} (h : c.Unlimited)
include h

theorem Unlimited.accepts (stream : Stream) : c.accepts stream = true :=
  accepts_of_unlimited (h stream)

theorem Unlimited.write (stream : Stream) (content : Bytes) :
    (c.write stream content).Unlimited := h

theorem Unlimited.perform (script : Script) : (c.perform script).Unlimited := by
  induction script generalizing c with
  | nil => exact h
  | cons entry script ih => exact ih (h.write entry.1 entry.2)

theorem wrote_perform (script : Script) :
    c.Wrote (script.map fun entry => ⟨entry.1, entry.2, true⟩) (c.perform script) := by
  induction script generalizing c with
  | nil => exact .nil c
  | cons entry script ih =>
      have hrest := Wrote.cons (ih (h.write entry.1 entry.2))
      rwa [h.accepts] at hrest

theorem output_perform (script : Script) (stream : Stream) :
    (c.perform script).output stream c.writes.size = script.on stream := by
  rw [(wrote_perform h script).output, Script.on]
  simp [List.filter_map, Function.comp_def, List.flatMap_map]

end Console

/-! ## Runs -/

namespace Run

def printed (policy : Unterminated) (source : Bytes) : List Bytes :=
  if obstacles policy source = [] then (stmts policy source).filterMap Stmt.line? else []

def unplaced (r : Run) : Run :=
  { r with execution := r.execution.map fun x => { x with console := {} } }

section Unplaced

variable (r : Run)

private theorem outcomes_unplaced : r.unplaced.outcomes = r.outcomes := by
  rw [outcomes, outcomes, unplaced]
  cases r.execution <;> rfl

theorem records_unplaced : r.unplaced.records = r.records := by
  rw [records, records, unplaced]
  cases r.execution <;> rfl

private theorem acts_unplaced (timing : Timing) : r.unplaced.acts timing = r.acts timing := by
  obtain ⟨id, source, depth, scan, program, execution⟩ := r
  cases depth <;> cases execution <;> rfl

end Unplaced

section Start

variable (policy : Unterminated) (id source : Bytes) {c c' : Console}

private theorem console_of_unlimited (hc : c.Unlimited) :
    (start policy id .evaluation source c).console c =
      c.writeAll .stdout (printed policy source) := by
  by_cases hclean : obstacles policy source = []
  · rw [console, execution_of_unlimited id hclean (hc .stdout), printed, if_pos hclean]
  · rw [console, execution_start, if_neg hclean, printed, if_neg hclean]
    rfl

theorem lines_of_unlimited (hc : c.Unlimited) :
    (start policy id .evaluation source c).lines = printed policy source := by
  obtain ⟨attempts, h⟩ := exists_printed_start policy id source c
  obtain ⟨ws, hws, -, hcontents⟩ := c.exists_wrote_writeAll .stdout (printed policy source)
  have hwrote := h.wrote.writes
  rw [console_of_unlimited policy id source hc, hws.writes, List.append_right_inj] at hwrote
  rw [h.attempted, ← hwrote, hcontents]

/-- A run that nothing refuses is the same on every console. -/
theorem unplaced_start (hc : c.Unlimited) (hc' : c'.Unlimited) :
    (start policy id .evaluation source c).unplaced =
      (start policy id .evaluation source c').unplaced := by
  have hexecution : (start policy id .evaluation source c).unplaced.execution =
      (start policy id .evaluation source c').unplaced.execution := by
    rw [unplaced, unplaced]
    by_cases hclean : obstacles policy source = []
    · rw [execution_of_unlimited id hclean (hc .stdout),
        execution_of_unlimited id hclean (hc' .stdout)]
      rfl
    · rw [execution_start, execution_start, if_neg hclean, if_neg hclean]
  exact congrArg (Run.mk id source .evaluation (Scan.ofSource policy source)
    (Program.ofTokens (Scan.ofSource policy source).tokens)) hexecution

theorem fault?_of_unlimited (hc : c.Unlimited) :
    (start policy id .evaluation source c).fault? = none := by
  obtain ⟨printed, hprinted⟩ := exists_printed_start policy id source c
  rw [hprinted.faultless]
  exact fun w hw => hprinted.wrote.accepted_of_unlimited hw (hc w.stream)

end Start

def problems (policy : Unterminated) (source : Bytes) : Diagnostics :=
  (start policy [] .evaluation source {}).records

theorem records_eq_problems (policy : Unterminated) (id source : Bytes) {c : Console}
    (hc : c.Unlimited) :
    (start policy id .evaluation source c).records = problems policy source := by
  have hsame := unplaced_start policy id source hc Console.unlimited_empty
  rw [← records_unplaced, hsame, records_unplaced]
  rfl

end Run

/-! ## Units -/

namespace Setup

theorem work_unplaced (s : Setup) (r : Run) : s.work r.unplaced = s.work r := by
  rw [work, work, r.acts_unplaced]
  rfl

theorem work_of_off {s : Setup} (h : s.logger.level = .off) (r : Run) :
    s.work r = .ofContents .stdout r.lines := by
  have hlogged := (s.filter_work r).2
  rw [s.runLines_of_off h, List.map_nil, List.filter_eq_nil_iff] at hlogged
  rw [Script.ofContents, ← (s.filter_work r).1, eq_comm, List.filter_eq_self]
  intro entry hentry
  have hstderr := hlogged entry hentry
  simpa using (stream_of_mem_work hentry).resolve_right (by simpa using hstderr)

private theorem on_prompt_work (s : Setup) (r : Run) : (s.work r).on .prompt = [] := by
  rw [Script.on, List.filter_eq_nil_iff.mpr, List.flatMap_nil]
  intro entry hentry
  rcases stream_of_mem_work hentry with h | h <;> simp [h]

private theorem on_stdout_work (s : Setup) (r : Run) : (s.work r).on .stdout = r.lines.flatten := by
  rw [Script.on, (s.filter_work r).1, List.flatMap_map, List.flatMap_id']

end Setup

namespace Runner

section Scripts

variable (s : Setup) (r : Run)

def reportScript : Script :=
  if r.report = [] then []
  else [(.stderr, s.renderer.diagnostics r.report ++ [newline])]

def echoScript : Script :=
  match (if s.echo then trailingValue? r else none) with
  | none => []
  | some v => [(.stdout, s.renderer.echo v ++ [newline])]

private theorem trailingValue?_unplaced : trailingValue? r.unplaced = trailingValue? r := by
  rw [trailingValue?, trailingValue?, r.outcomes_unplaced]

theorem reportScript_unplaced : reportScript s r.unplaced = reportScript s r := by
  rw [reportScript, reportScript, Run.report, Run.report, r.records_unplaced]

theorem echoScript_unplaced : echoScript s r.unplaced = echoScript s r := by
  rw [echoScript, echoScript, trailingValue?_unplaced]

private theorem perform_report {c : Console} (hc : c.Unlimited) :
    report s r c = (c.perform (reportScript s r), false) := by
  rw [report, reportScript]
  by_cases hreport : r.report = []
  · simp [hreport, Console.perform]
  · simp [hreport, hc.accepts, Console.perform]

private theorem finish_of_unlimited {c : Console} (t : Tally) (hc : c.Unlimited)
    (hfault : r.fault? = none) :
    finish s r t c =
      ⟨some r, none, t.count r, c.perform (reportScript s r ++ echoScript s r)⟩ := by
  have hreported := perform_report s r hc
  have hearly : earlyFault? s r c = none := by
    rw [earlyFault?, hfault, hreported]
    rfl
  rw [finish, hearly, hreported, Console.perform_append, echoScript]
  cases (if s.echo then trailingValue? r else none) with
  | none => rfl
  | some v =>
      simp only [(hc.perform _).accepts, if_true]
      rfl

end Scripts

/-- What a unit writes if nothing is refused and `n` units were run before it. -/
def script (s : Setup) (n : Nat) (source : Bytes) : Script :=
  let r := Run.start s.policy (s.ids.run n) .evaluation source {}
  s.work r ++ reportScript s r ++ echoScript s r

theorem run_of_unlimited (s : Setup) (source : Bytes) (t : Tally) {c : Console}
    (hc : c.Unlimited) :
    run s source t c =
      ⟨some (Run.start s.policy (s.ids.run t.runs) .evaluation source c), none,
        t.count (Run.start s.policy (s.ids.run t.runs) .evaluation source c),
        c.perform (script s t.runs source)⟩ := by
  have hfault := Run.fault?_of_unlimited s.policy (s.ids.run t.runs) source hc
  have hsame := Run.unplaced_start s.policy (s.ids.run t.runs) source hc
    Console.unlimited_empty
  change finish s _ t (c.perform _) = _
  rw [finish_of_unlimited s _ t (hc.perform _) hfault, ← Console.perform_append,
    ← List.append_assoc, ← s.work_unplaced, ← reportScript_unplaced, ← echoScript_unplaced,
    hsame, s.work_unplaced, reportScript_unplaced, echoScript_unplaced]
  rfl

theorem count_of_unlimited (policy : Unterminated) (id source : Bytes) (t : Tally) {c : Console}
    (hc : c.Unlimited) :
    t.count (Run.start policy id .evaluation source c) =
      ⟨t.runs + 1, if Run.problems policy source = [] then t.failed else t.failed + 1⟩ := by
  rw [Tally.count, Run.hasErrors, Run.records_eq_problems policy id source hc]
  cases Run.problems policy source <;> rfl

/-! ### Streams -/

section Streams

variable (s : Setup) (r : Run) {stream : Stream}

theorem on_reportScript_of_ne (h : stream ≠ .stderr) : (reportScript s r).on stream = [] := by
  rw [reportScript]
  split
  · rfl
  · exact Script.on_cons_of_ne h.symm _ _

private theorem on_echoScript_of_ne (h : stream ≠ .stdout) : (echoScript s r).on stream = [] := by
  rw [echoScript]
  split
  · rfl
  · exact Script.on_cons_of_ne h.symm _ _

end Streams

section Units

variable (s : Setup) (n : Nat) (source : Bytes)

theorem on_prompt_script : (script s n source).on .prompt = [] := by
  rw [script, Script.on_append, Script.on_append, s.on_prompt_work,
    on_reportScript_of_ne s _ (by decide), on_echoScript_of_ne s _ (by decide)]
  rfl

theorem on_stdout_script :
    (script s n source).on .stdout =
      (Run.printed s.policy source).flatten ++
        (echoScript s (Run.start s.policy [] .evaluation source {})).on .stdout := by
  rw [script, Script.on_append, Script.on_append, s.on_stdout_work,
    Run.lines_of_unlimited s.policy _ source Console.unlimited_empty,
    on_reportScript_of_ne s _ (by decide), List.append_nil]
  rfl

theorem output_run (t : Tally) (stream : Stream) :
    (run s source t {}).console.output stream 0 = (script s t.runs source).on stream := by
  have hconsole :
      (run s source t {}).console = ({} : Console).perform (script s t.runs source) := by
    rw [run_of_unlimited s source t Console.unlimited_empty]
  rw [hconsole]
  exact Console.output_perform Console.unlimited_empty _ stream

/-! ### Alone -/

/-- A unit that is run by a runner of its own, on a console of its own. -/
def alone : Step := run s source {} {}

theorem output_alone (stream : Stream) :
    (alone s source).console.output stream 0 = (script s 0 source).on stream :=
  output_run s source {} stream

theorem output_stdout_alone :
    (alone s source).console.output .stdout 0 = (script s n source).on .stdout := by
  rw [output_alone, on_stdout_script, on_stdout_script]

theorem script_of_off (h : s.logger.level = .off) : script s n source = script s 0 source := by
  have hlines (k : Nat) :=
    Run.lines_of_unlimited s.policy (s.ids.run k) source Console.unlimited_empty
  rw [script, script, s.work_of_off h, s.work_of_off h, hlines, hlines]
  rfl

end Units

end Runner

/-- The setup that gives its first run the identifier of run number `n`. -/
def Setup.numbered (s : Setup) (n : Nat) : Setup :=
  { s with ids := { s.ids with run := fun k => s.ids.run (n + k) } }

theorem Runner.output_alone_numbered (s : Setup) (n : Nat) (source : Bytes) (stream : Stream) :
    (alone (s.numbered n) source).console.output stream 0 = (script s n source).on stream :=
  output_alone (s.numbered n) source stream

end Scriptlet
