import Scriptlet.CommandLine.Execution
import Scriptlet.Proofs.Session.Classification

/-!
# Refused output of a command

Running a file turns a refused line into the exit code for failures of input
and output.  Listing the tokens or the tree of a file does not: two consoles
that treat the error stream alike give the same exit code, whatever they do to
the standard output (`execute_refused`).
-/

namespace Scriptlet

namespace Console

/-! ## Exit codes that show refusals -/

/-- The exit code shows whether the standard output refused a line between two consoles. -/
def Shows (exit : Nat) (c after : Console) : Prop :=
  ∃ ws, c.Wrote ws after ∧ ∀ w ∈ ws, w.stream = .stdout → w.accepted = false → exit = 74

namespace Shows

variable {exit : Nat} {a b c : Console}

theorem append (h : Shows exit a b) (h' : Shows exit b c) : Shows exit a c := by
  obtain ⟨us, hus, hexit⟩ := h
  obtain ⟨ws, hws, hexit'⟩ := h'
  exact ⟨us ++ ws, hus.append hws, List.forall_mem_append.mpr ⟨hexit, hexit'⟩⟩

theorem of_stderr {ws : List Write} (h : a.Wrote ws b) (hstderr : ∀ w ∈ ws, w.stream = .stderr) :
    Shows exit a b := by
  refine ⟨ws, h, ?_⟩
  intro w hw hstdout
  rw [hstderr w hw] at hstdout
  cases hstdout

theorem writeAll (exit : Nat) (c : Console) (lines : List Bytes) :
    Shows exit c (c.writeAll .stderr lines) := by
  obtain ⟨ws, hwrote, hstderr, -⟩ := c.exists_wrote_writeAll .stderr lines
  exact of_stderr hwrote hstderr

end Shows

end Console

namespace Runner

/-! ## Running -/

private theorem Attempted.exit_of_refused {s : Setup} {source : Bytes} {t : Tally} {c : Console}
    {r : Run} {working printed logged echoed : List Write}
    (h : Attempted s source t c r working printed logged echoed) {w : Write}
    (hw : w ∈ working ++ reported s r c ++ echoed) (hstream : w.stream = .stdout)
    (hrefused : w.accepted = false) : (run s source t c).exit = 74 := by
  have hfault : (run s source t c).fault ≠ none := by
    intro hnone
    have haccepted := h.fault_iff.mp hnone
    simp only [List.mem_append, h.mem_working] at hw haccepted
    have hlogged : w ∉ logged := by
      intro hlogged
      rw [h.stderr hlogged] at hstream
      cases hstream
    rw [haccepted w (by tauto)] at hrefused
    cases hrefused
  obtain ⟨f, hf⟩ := Option.ne_none_iff_exists'.mp hfault
  rw [Step.exit, hf]
  rw [h.finished] at hf
  exact exit_of_inputOutput (code_of_fault_finish s r t _ hf) _

theorem shows_runFile {files : Files} {input path source : Bytes}
    (hsource : readSource files input path = .ok source) (s : Setup) (t : Tally)
    (c : Console) :
    Console.Shows (runFile s files input path t c).exit c
      (runFile s files input path t c).console := by
  simp only [runFile, hsource]
  obtain ⟨r, working, printed, logged, echoed, h⟩ := exists_attempted s source t _
  exact (Console.Shows.writeAll _ _ _).append
    ⟨_, h.wrote, fun w hw => h.exit_of_refused hw⟩

/-! ## Listing -/

section Inspect

variable {s : Setup} {depth : Depth} (hdepth : depth ≠ .evaluation) (source : Bytes)
  (t : Tally)

private theorem refused_report_of_agree {c c' : Console} (h : c.Agree .stderr c') (s : Setup)
    (r : Run) : (report s r c).2 = (report s r c').2 := by
  unfold report
  split
  · rfl
  · rw [h.accepts]

private theorem stderr_of_mem_work {r : Run} (hr : r.execution = none) {entry : Stream × Bytes}
    (h : entry ∈ s.work r) : entry.1 = .stderr := by
  have hlines := (s.filter_work r).1
  rw [r.lines_eq, hr, Option.map_none, Option.getD_none, List.map_nil,
    List.filter_eq_nil_iff] at hlines
  exact (Setup.stream_of_mem_work h).resolve_left (by simpa using hlines entry h)

include hdepth

/-- Nothing is written before evaluation, so the run does not depend on the console. -/
theorem inspect_eq :
    ∃ r : Run, r.execution = none ∧ ∀ c', inspect s depth source t c' =
      ⟨some r, if (report s r (c'.perform (s.work r))).2 then some (refused "write diagnostics")
        else none, t.count r, (report s r (c'.perform (s.work r))).1⟩ := by
  cases depth with
  | tokens =>
      exact ⟨Run.start s.policy (s.ids.run t.runs) .tokens source {}, rfl, fun _ => rfl⟩
  | program =>
      exact ⟨Run.start s.policy (s.ids.run t.runs) .program source {}, rfl, fun _ => rfl⟩
  | evaluation => contradiction

private theorem exit_inspect_of_agree {c c' : Console} (h : c.Agree .stderr c') :
    (inspect s depth source t c).exit = (inspect s depth source t c').exit := by
  obtain ⟨r, -, hinspect⟩ := inspect_eq (s := s) hdepth source t
  rw [hinspect, hinspect, Step.exit, Step.exit,
    refused_report_of_agree (h.perform (s.work r)) s r]

private theorem exists_wrote_inspect (c : Console) :
    ∃ ws, c.Wrote ws (inspect s depth source t c).console ∧
      ((∀ w ∈ ws, w.accepted = true) → (inspect s depth source t c).exit ≠ 74) ∧
      ∀ w ∈ ws, w.stream = .stderr := by
  obtain ⟨r, hr, hinspect⟩ := inspect_eq (s := s) hdepth source t
  obtain ⟨logged, hlogged, hcontents⟩ := c.exists_wrote_perform (s.work r)
  have hstderr : ∀ w ∈ logged, w.stream = .stderr := fun w hw => by
    have hentry : (w.stream, w.content) ∈ s.work r := hcontents ▸ List.mem_map_of_mem hw
    exact stderr_of_mem_work hr hentry
  rw [hinspect]
  refine ⟨logged ++ _, hlogged.append (wrote_report s r _), ?_, ?_⟩
  · intro haccepted
    have hreport := (report_accepted_iff s r (c.perform (s.work r))).mpr
      (List.forall_mem_append.mp haccepted).2
    rw [hreport, Step.exit]
    exact Exit.ofRecords_ne_inputOutput
  · exact List.forall_mem_append.mpr ⟨hstderr, fun _ => stream_of_mem_reportWrites⟩

end Inspect

end Runner

namespace CommandLine

/-! ## Completions -/

namespace Completion

variable (code : Nat) (fault : Option Fault) (c : Console)

theorem exit_withCode : (withCode code fault c).exit = code := by
  cases fault <;> rfl

theorem exists_wrote_withCode :
    ∃ ws, c.Wrote ws (withCode code fault c).console ∧ ∀ x ∈ ws, x.stream = .stderr := by
  cases fault with
  | none => exact ⟨[], .nil c, by simp⟩
  | some f =>
      by_cases hok : (code == Exit.ok) = true
      · exact ⟨[], by simpa [withCode, hok] using Console.Wrote.nil c, by simp⟩
      · refine ⟨[⟨.stderr, utf8 "Error: " ++ f.text ++ [newline], c.accepts .stderr⟩], ?_, ?_⟩
        · simpa [withCode, hok, complain] using Console.Wrote.single c .stderr _
        · simp

end Completion

/-! ## Commands -/

section Commands

variable {w : World} {path source : Bytes}
  (hsource : Runner.readSource w.files w.input path = .ok source) (s : Setup) (c : Console)
include hsource

theorem shows_runFile :
    Console.Shows (runFile w s path c).exit c (runFile w s path c).console := by
  have hexit : (runFile w s path c).exit =
      (Runner.runFile s w.files w.input path {} (s.opened c)).exit :=
    Completion.exit_withCode _ _ _
  obtain ⟨ws, hcomplained, hstderr⟩ := Completion.exists_wrote_withCode
    (Runner.runFile s w.files w.input path {} (s.opened c)).exit
    (Runner.runFile s w.files w.input path {} (s.opened c)).fault
    (Runner.runFile s w.files w.input path {} (s.opened c)).console
  rw [hexit]
  exact ((Console.Shows.writeAll _ _ _).append (Runner.shows_runFile hsource s {} _)).append
    (.of_stderr hcomplained hstderr)

section List

variable {depth : Depth} (hdepth : depth ≠ .evaluation) (items : Run → List Bytes)

theorem exit_list :
    (list w s depth items path c).exit =
      (Runner.inspect s depth source {} (s.opened c)).exit := by
  rw [list, hsource]
  exact Completion.exit_withCode _ _ _

include hdepth

private theorem exit_list_of_agree {c c' : Console} (h : c.Agree .stderr c') :
    (list w s depth items path c').exit = (list w s depth items path c).exit := by
  rw [exit_list hsource, exit_list hsource]
  exact (Runner.exit_inspect_of_agree hdepth source {} (h.writeAll .stderr _)).symm

private theorem exists_wrote_list :
    ∃ ws, c.Wrote ws (list w s depth items path c).console ∧
      ((∀ x ∈ ws, x.stream = .stderr → x.accepted = true) →
        (list w s depth items path c).exit ≠ 74) := by
  obtain ⟨opened, hopened, -, -⟩ := c.exists_wrote_writeAll .stderr
    (s.sessionLogger.lines s.time [Run.engineEvent s.policy])
  obtain ⟨inspected, hinspected, hexit, hstderr⟩ :=
    Runner.exists_wrote_inspect (s := s) hdepth source {} (s.opened c)
  rw [exit_list hsource]
  simp only [list, hsource]
  obtain ⟨listed, hlisted, -, -⟩ := Console.exists_wrote_writeAll
    (Runner.inspect s depth source {} (s.opened c)).console .stdout _
  obtain ⟨complained, hcomplained, -⟩ := Completion.exists_wrote_withCode _ _ _
  refine ⟨opened ++ inspected ++ listed ++ complained,
    ((hopened.append hinspected).append hlisted).append hcomplained, ?_⟩
  intro haccepted
  apply hexit
  intro x hx
  refine haccepted x ?_ (hstderr x hx)
  simp [hx]

end List

end Commands

private theorem exists_perform_eq_list {action : Action} {path : Bytes}
    (h : action ∈ [Action.listTokens path, .listTree path]) (w : World) (s : Setup)
    (settings : Settings) :
    ∃ depth, depth ≠ .evaluation ∧ ∃ items, ∀ c,
      perform w s settings c action = list w s depth items path c := by
  rcases List.mem_pair.mp h with rfl | rfl
  · refine ⟨.tokens, by simp, fun run => run.scan.tokens.map Token.dump, ?_⟩
    intro c
    rw [perform]
  · refine ⟨.program, by simp, fun run => run.program.stmts.map Stmt.shown, ?_⟩
    intro c
    rw [perform]

private theorem execute_perform {w : World} {arguments : List Bytes} {command : Command}
    {options : Options} {action : Action} {settings : Settings}
    (hrequest : Request.ofArguments arguments = .ok (.perform command options action))
    (hsettings : w.settings options = .ok settings) (c : Console) :
    execute w arguments c =
      perform w (w.setup options settings) settings
        ((w.setup options settings).note [loadedEvent command options settings] c)
        action := by
  simp only [execute, hrequest, executeRequest, hsettings]

/--
A command that runs a file ends with the exit code 74 if a line on the standard
output was refused.  One that lists the tokens or the tree of a file does not:
its exit code is the same whatever the standard output accepts, and it is not
74 unless something on the error stream was refused.
-/
theorem execute_refused {w : World} {arguments : List Bytes} {command : Command}
    {options : Options} {action : Action} {settings : Settings} {path source : Bytes}
    (hrequest : Request.ofArguments arguments = .ok (.perform command options action))
    (haction : action ∈ [Action.run path, .listTokens path, .listTree path])
    (hsettings : w.settings options = .ok settings)
    (hsource : Runner.readSource w.files w.input path = .ok source) (c : Console) :
    ∃ ws, c.Wrote ws (execute w arguments c).console ∧
      (action = .run path →
        ∀ x ∈ ws, x.stream = .stdout → x.accepted = false →
          (execute w arguments c).exit = 74) ∧
      (action ≠ .run path →
        (∀ c', c.Agree .stderr c' →
          (execute w arguments c').exit = (execute w arguments c).exit) ∧
        ((∀ x ∈ ws, x.stream = .stderr → x.accepted = true) →
          (execute w arguments c).exit ≠ 74)) := by
  simp only [execute_perform hrequest hsettings]
  rcases List.mem_cons.mp haction with rfl | hlists
  · obtain ⟨ws, hwrote, hexit⟩ := (Console.Shows.writeAll _ c _).append
      (shows_runFile hsource (w.setup options settings)
        ((w.setup options settings).note [loadedEvent command options settings] c))
    exact ⟨ws, hwrote, fun _ => hexit, by simp⟩
  · obtain ⟨depth, hdepth, items, hlist⟩ :=
      exists_perform_eq_list hlists w (w.setup options settings) settings
    obtain ⟨listed, hlisted, hexit⟩ := exists_wrote_list hsource (w.setup options settings)
      ((w.setup options settings).note [loadedEvent command options settings] c) hdepth items
    obtain ⟨noted, hnoted, -⟩ := c.exists_wrote_writeAll .stderr
      ((w.setup options settings).logger.lines (w.setup options settings).time
        [loadedEvent command options settings])
    simp only [hlist]
    refine ⟨noted ++ listed, hnoted.append hlisted, ?_, ?_⟩
    · rintro rfl
      simp at hlists
    · rintro -
      refine ⟨fun c' h => exit_list_of_agree hsource _ hdepth items (h.writeAll .stderr _), ?_⟩
      intro haccepted
      exact hexit fun x hx => haccepted x (List.mem_append_right _ hx)

def World.ofSource (source : String) : World :=
  { files := [(utf8 "a", utf8 source)], ids := ⟨[], fun _ => []⟩ }

def fullDisk : Console := { limit := fun stream => if stream = .stdout then some 0 else none }

theorem execute_refused_print :
    (execute (World.ofSource "print 1;") [utf8 "run", utf8 "a"] fullDisk).exit = 74 ∧
      (execute (World.ofSource "print 1;") [utf8 "tokens", utf8 "a"] fullDisk).exit =
        (execute (World.ofSource "print 1;") [utf8 "tokens", utf8 "a"] {}).exit := by
  have hrun : Request.ofArguments [utf8 "run", utf8 "a"] =
      .ok (.perform .run {} (.run (utf8 "a"))) := rfl
  have htokens : Request.ofArguments [utf8 "tokens", utf8 "a"] =
      .ok (.perform .tokens {} (.listTokens (utf8 "a"))) := rfl
  have hsettings : (World.ofSource "print 1;").settings {} = .ok {} := rfl
  have hsource : Runner.readSource (World.ofSource "print 1;").files
      (World.ofSource "print 1;").input (utf8 "a") = .ok (utf8 "print 1;") := rfl
  constructor
  · obtain ⟨ws, hwrote, hexit, -⟩ := execute_refused hrun (by simp) hsettings hsource fullDisk
    have hrefused : ∃ x ∈ (execute (World.ofSource "print 1;") [utf8 "run", utf8 "a"]
        fullDisk).console.writes.toList, x.stream = .stdout ∧ x.accepted = false := by
      decide +kernel
    rw [hwrote.writes] at hrefused
    obtain ⟨x, hx, hstdout, hrefused⟩ := hrefused
    exact hexit rfl x hx hstdout hrefused
  · obtain ⟨ws, -, -, hexit⟩ := execute_refused htokens (by simp) hsettings hsource {}
    exact (hexit (by simp)).1 fullDisk ⟨rfl, rfl⟩

/-- Listing a file onto a full disk succeeds. -/
theorem execute_listing_refused :
    ((∃ x ∈ (execute (World.ofSource "1;") [utf8 "tokens", utf8 "a"]
          fullDisk).console.writes.toList, x.stream = .stdout ∧ x.accepted = false) ∧
        (execute (World.ofSource "1;") [utf8 "tokens", utf8 "a"] fullDisk).exit = 0) ∧
      (∃ x ∈ (execute (World.ofSource "1;") [utf8 "ast", utf8 "a"]
          fullDisk).console.writes.toList, x.stream = .stdout ∧ x.accepted = false) ∧
        (execute (World.ofSource "1;") [utf8 "ast", utf8 "a"] fullDisk).exit = 0 := by
  decide +kernel

end CommandLine

end Scriptlet
