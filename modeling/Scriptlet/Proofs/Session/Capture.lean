import Scriptlet.Proofs.Decimal.Digits
import Scriptlet.Proofs.Session.Scrollback
import Scriptlet.Proofs.Text.Pieces

/-!
# Captured output

A full-screen session captures what a unit writes and shows it line by line.
Every print and every echo has its lines on the screen, but for the empty lines
at the very end of the output (`execute_output`).
-/

namespace Scriptlet

/-! ## What a unit writes -/

namespace Stmt

def said? (s : Stmt) : Option Bytes :=
  match s.isPrint, s.eval with
  | true, .ok v => some v.shown
  | _, _ => none

private theorem line?_eq (s : Stmt) : s.line? = s.said?.map (· ++ [newline]) := by
  rw [line?, said?]
  cases s.isPrint with
  | false => rfl
  | true => cases s.eval <;> rfl

end Stmt

namespace Runner

variable (s : Setup) (source : Bytes)

def said : List Bytes :=
  if Run.obstacles s.policy source = [] then
    (Run.stmts s.policy source).filterMap Stmt.said?
  else []

def echoed? : Option Value :=
  if s.echo then trailingValue? (Run.start s.policy [] .evaluation source {}) else none

/-- What a unit writes for its user, in order. -/
def uttered : List Bytes := said s source ++ ((echoed? s source).map s.renderer.echo).toList

private theorem flatten_printed :
    (Run.printed s.policy source).flatten = Bytes.ended (said s source) := by
  rw [Run.printed, said]
  split
  · rw [funext Stmt.line?_eq, ← List.map_filterMap, Bytes.ended, List.flatMap]
  · rfl

theorem on_stdout_script_eq (n : Nat) :
    (script s n source).on .stdout = Bytes.ended (uttered s source) := by
  have hecho : (echoScript s (Run.start s.policy [] .evaluation source {})).on .stdout =
      Bytes.ended ((echoed? s source).map s.renderer.echo).toList := by
    rw [echoScript, ← echoed?]
    cases echoed? s source with
    | none => rfl
    | some v => simp [Script.on, Bytes.ended]
  rw [on_stdout_script, flatten_printed, hecho, uttered, Bytes.ended_append]

end Runner

/-! ## Echoes -/

namespace Style

open Bytes

private theorem not_endsBlank_widenTabs {s : Bytes} (h : ¬EndsBlank s) :
    ¬EndsBlank (widenTabs s) := by
  rcases s.eq_nil_or_concat' with rfl | ⟨init, b, rfl⟩
  · exact absurd endsBlank_nil h
  · rw [endsBlank_concat] at h
    rw [widenTabs, List.flatMap_append, List.flatMap_singleton]
    split
    · rw [endsBlank_append _ (by decide)]
      decide
    · rwa [endsBlank_concat]

private theorem unifyBreaks_concat (init : Bytes) (b : UInt8) :
    ∃ front, unifyBreaks (init ++ [b]) = front ++ [b] := by
  rw [unifyBreaks, List.foldr_append]
  refine List.foldrRecOn (motive := fun (p : Bytes × Bool) => ∃ front, p.1 = front ++ [b])
    init _ ?_ ?_
  · exact ⟨[], by simp⟩
  · rintro ⟨rest, unpaired⟩ ⟨front, hfront⟩ c -
    dsimp only at hfront ⊢
    split
    · exact ⟨front, hfront⟩
    · exact ⟨c :: front, congrArg (c :: ·) hfront⟩

private theorem not_endsBlank_unifyBreaks {s : Bytes} (h : ¬EndsBlank s) :
    ¬EndsBlank (unifyBreaks s) := by
  rcases s.eq_nil_or_concat' with rfl | ⟨init, b, rfl⟩
  · exact absurd endsBlank_nil h
  · obtain ⟨front, hfront⟩ := unifyBreaks_concat init b
    rwa [hfront, endsBlank_concat, ← endsBlank_concat init]

private theorem not_endsBlank_line (style : Style) (sequences : Bool) {s : Bytes}
    (h : ¬EndsBlank s) :
    ¬EndsBlank (style.line sequences s) := by
  rw [line]
  split
  · rw [endsBlank_append _ (by decide)]
    decide
  · exact h

private theorem not_endsBlank_padded {s : Bytes} (h : ¬EndsBlank s) (n : Nat) :
    ¬EndsBlank (s ++ spaces n) := by
  cases n with
  | zero => rwa [spaces, List.replicate_zero, List.append_nil]
  | succ n =>
      rw [spaces, List.replicate_succ', ← List.append_assoc, endsBlank_concat]
      decide

private theorem not_endsBlank_apply (style : Style) (sequences : Bool) {s : Bytes}
    (h : ¬EndsBlank s) :
    ¬EndsBlank (style.apply sequences s) := by
  have hunified := not_endsBlank_unifyBreaks (not_endsBlank_widenTabs h)
  obtain ⟨front, last, hpieces, hs, hproper⟩ := exists_last (unifyBreaks (widenTabs s))
  have hlast : ¬EndsBlank last := by
    rw [endsBlank_of_not_mem hproper]
    rw [EndsBlank, hpieces] at hunified
    simpa using hunified
  simp only [apply, hpieces, List.map_append, List.map_singleton, join_concat]
  have hpadded := not_endsBlank_padded (not_endsBlank_line style sequences hlast)
  rw [endsBlank_append _ fun hnil => ?_]
  · exact hpadded _
  · exact hpadded _ (hnil ▸ endsBlank_nil)

end Style

/-- The last line of an echoed value is not empty, whatever the value. -/
theorem Renderer.not_endsBlank_echo (r : Renderer) (v : Value) : ¬Bytes.EndsBlank (r.echo v) := by
  have hstyled {s : Bytes} (h : ¬Bytes.EndsBlank s) : ¬Bytes.EndsBlank (r.styled .echo s) := by
    rw [styled]
    split
    · exact Style.not_endsBlank_apply .echo r.sequences h
    · exact h
  apply hstyled
  cases v with
  | nil => decide
  | boolean b => cases b <;> decide
  | number x =>
      obtain ⟨hne, hline⟩ := Decimal.write_plain x
      exact fun hblank => hne ((Bytes.endsBlank_of_not_mem hline).mp hblank)
  | text content => exact fun hblank => absurd ((Bytes.endsBlank_concat _ _).mp hblank) (by decide)

/-! ## What a screen shows of it -/

namespace ScreenLine

private theorem ofOutput_ended (kind : LineKind) {lines : List Bytes}
    (hlines : ∀ line ∈ lines, newline ∉ line) :
    ofOutput kind (Bytes.ended lines) = (Bytes.dropBlank lines).map (mk kind) := by
  have hkept := Bytes.dropEndWhile_ended hlines
  have hproper : ∀ line ∈ Bytes.dropBlank lines, newline ∉ line := fun line hline =>
    hlines line ((List.rdropWhile_prefix _ _).subset hline)
  rw [ofOutput, hkept]
  split
  case h_1 hnil =>
      rw [Bytes.dropBlank_eq_nil hnil]
      rfl
  case h_2 kept hne =>
      rw [Bytes.pieces_join hproper fun hnil => hne (by rw [hnil]; rfl)]

/-- The text of the lines of one kind, each with its newline. -/
def textOf (kind : LineKind) (lines : List ScreenLine) : Bytes :=
  Bytes.ended ((lines.filter fun l => l.kind == kind).map content)

theorem ofOutput_kind {kind : LineKind} {output : Bytes} {l : ScreenLine}
    (h : l ∈ ofOutput kind output) : l.kind = kind := by
  rw [ofOutput] at h
  split at h
  · cases h
  · obtain ⟨line, -, rfl⟩ := List.mem_map.mp h
    rfl

private theorem filter_ofOutput_self (kind : LineKind) (output : Bytes) :
    (ofOutput kind output).filter (fun l => l.kind == kind) = ofOutput kind output :=
  List.filter_eq_self.mpr fun _ hl => beq_iff_eq.mpr (ofOutput_kind hl)

private theorem filter_ofOutput_of_ne {kind other : LineKind} (h : other ≠ kind) (output : Bytes) :
    (ofOutput other output).filter (fun l => l.kind == kind) = [] :=
  List.filter_eq_nil_iff.mpr fun _ hl => by simpa [ofOutput_kind hl] using h

end ScreenLine

namespace Screen

variable (s : Setup) (d : Dialogue)

theorem output_block (line : Bytes) :
    ((block s d line).filter fun l => l.kind == .output).map ScreenLine.content =
      Bytes.dropBlank ((Runner.uttered s line).flatMap Bytes.pieces) := by
  have hlines : ∀ text ∈ (Runner.uttered s line).flatMap Bytes.pieces, newline ∉ text := by
    intro text htext
    obtain ⟨whole, -, hpiece⟩ := List.mem_flatMap.mp htext
    exact Bytes.not_mem_of_mem_pieces hpiece
  have hwritten : (Runner.alone s.silenced line).console.output .stdout 0 =
      Bytes.ended ((Runner.uttered s line).flatMap Bytes.pieces) := by
    rw [Runner.output_alone, Runner.on_stdout_script_eq, Bytes.ended_flatMap_pieces]
    rfl
  rw [block, List.filter_cons_of_neg (by simp), List.filter_append,
    ScreenLine.filter_ofOutput_self, ScreenLine.filter_ofOutput_of_ne (by decide),
    List.append_nil, hwritten, ScreenLine.ofOutput_ended _ hlines, List.map_map]
  exact List.map_id _

private theorem output_run_of_empty (line : Bytes) {m : Screen} (h : m.captured = {}) :
    (Runner.run s.silenced line m.tally m.captured).console.output .stdout 0 =
      Bytes.ended (Runner.uttered s line) := by
  rw [h, Runner.output_run]
  exact Runner.on_stdout_script_eq s.silenced line _

private theorem exists_textOf_block (line : Bytes) :
    ∃ n, Bytes.ended (Runner.uttered s line) =
        ScreenLine.textOf .output (block s d line) ++ List.replicate n newline ∧
      (n = 0 ↔ ∀ last ∈ (Runner.uttered s line).getLast?, ¬Bytes.EndsBlank last) := by
  obtain ⟨n, hdropped, hzero⟩ :=
    Bytes.exists_dropBlank ((Runner.uttered s line).flatMap Bytes.pieces)
  refine ⟨n, ?_, ?_⟩
  · rw [ScreenLine.textOf, output_block, ← Bytes.ended_replicate_nil, ← Bytes.ended_append,
      ← hdropped, Bytes.ended_flatMap_pieces]
  · rw [hzero, ne_eq, Bytes.getLast?_flatMap_pieces]
    simp

/--
What a line writes is captured as the texts that it prints and echoes, a newline
behind each.  The screen shows the lines of these texts without the empty ones at
the end, so that newlines at the end of the output are lost, and nothing else.
All of it is shown if and only if the last text is neither empty nor ended by a
newline, and in particular if there is an echo.
-/
theorem execute_output (happenings : List Happening) (line : Bytes) :
    ∃ (m m' : Screen) (texts : List Bytes) (captured shown : Bytes) (added : List ScreenLine),
      m = lived s d happenings ∧ m' = m.execute s d line ∧
      texts = Runner.uttered s line ∧
      captured = (Runner.run s.silenced line m.tally m.captured).console.output .stdout 0 ∧
      captured = Bytes.ended texts ∧
      m'.lines = m.lines ++ added ∧ shown = ScreenLine.textOf .output added ∧
      (added.filter fun l => l.kind == .output).map ScreenLine.content =
        Bytes.dropBlank (texts.flatMap Bytes.pieces) ∧
      (∃ n, captured = shown ++ List.replicate n newline) ∧
      (shown = captured ↔ ∀ last ∈ texts.getLast?, last ≠ [] ∧ last.getLast? ≠ some newline) ∧
      ((Runner.echoed? s line).isSome → shown = captured) := by
  have hempty : (lived s d happenings).captured = {} :=
    ((reflects_opened s d).foldl_undergo s d rfl happenings).captured
  have hcaptured := output_run_of_empty s line hempty
  have hlines : ((lived s d happenings).execute s d line).lines =
      (lived s d happenings).lines ++ block s d line := by
    rw [execute_of_empty s d line hempty]
  obtain ⟨n, hshown, hzero⟩ := exists_textOf_block s d line
  have hwhole : ScreenLine.textOf .output (block s d line) = Bytes.ended (Runner.uttered s line) ↔
      ∀ last ∈ (Runner.uttered s line).getLast?, ¬Bytes.EndsBlank last := by
    rw [hshown, List.self_eq_append_right, List.replicate_eq_nil_iff, hzero]
  refine ⟨_, _, _, _, _, _, rfl, rfl, rfl, rfl, hcaptured, hlines, rfl, output_block s d line,
    ⟨n, ?_⟩, ?_, ?_⟩
  · rw [hcaptured, hshown]
  · rw [hcaptured, hwhole]
    simp only [Bytes.endsBlank_iff, not_or, ne_eq]
  · intro hecho
    obtain ⟨v, hv⟩ := Option.isSome_iff_exists.mp hecho
    rw [hcaptured, hwhole, Runner.uttered, hv]
    simp [s.renderer.not_endsBlank_echo v]

/-- An empty text is printed in front of an echo, and both lines appear. -/
theorem execute_shows_line_before_echo :
    ∃ (s : Setup) (line : Bytes) (m m' : Screen) (added : List ScreenLine),
      s = { echo := true, ids := ⟨[], fun _ => []⟩ } ∧ line = utf8 "print \"\"; \"a\";" ∧
      m = lived s {} [] ∧ m' = m.execute s {} line ∧ (Runner.echoed? s line).isSome ∧
      m'.lines = m.lines ++ added ∧ ScreenLine.textOf .output added = utf8 "\n\"a\"\n" := by
  obtain ⟨m, m', texts, captured, shown, added, rfl, rfl, -, rfl, -, hlines, rfl, -, -, -, hecho⟩ :=
    execute_output { echo := true, ids := ⟨[], fun _ => []⟩ } {} []
      (utf8 "print \"\"; \"a\";")
  have hsome : (Runner.echoed? { echo := true, ids := ⟨[], fun _ => []⟩ }
      (utf8 "print \"\"; \"a\";")).isSome := by decide +kernel
  refine ⟨_, _, _, _, added, rfl, rfl, rfl, rfl, hsome, hlines, (hecho hsome).trans ?_⟩
  decide +kernel

/-- An empty text is printed, and no line of output appears. -/
theorem execute_loses_empty_line :
    ∃ (s : Setup) (line : Bytes) (m m' : Screen),
      s = { ids := ⟨[], fun _ => []⟩ } ∧ line = utf8 "print \"\";" ∧
      m = lived s {} [] ∧ m' = m.execute s {} line ∧
      (Runner.run s.silenced line m.tally m.captured).console.output .stdout 0 = [newline] ∧
      m'.lines = m.lines ++ [⟨.input, utf8 "> " ++ line⟩] ∧
      ScreenLine.textOf .output [⟨.input, utf8 "> " ++ line⟩] = [] := by
  refine ⟨_, _, _, _, rfl, rfl, rfl, rfl, ?_, ?_, ?_⟩ <;> decide +kernel

end Screen

end Scriptlet
