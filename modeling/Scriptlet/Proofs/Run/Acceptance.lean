import Scriptlet.Proofs.Token.Tokenization
import Scriptlet.Proofs.Tree.Flattening
import Scriptlet.Proofs.Tree.Isolation
import Scriptlet.Run.Engine

/-!
# Which sources are evaluated

A statement that cannot be read never disappears: either its failure is
recorded, or it failed at an error token, which scanning has recorded.  So a
run evaluates exactly the sources without scanning problems whose tokens are a
program of the grammar.
-/

namespace Scriptlet

/-! ## Problems found before evaluation -/

theorem Diagnostics.hasStatic_eq_false {d : Diagnostics} :
    d.hasStatic = false ↔ ∀ r ∈ d, r.stage ≠ .scan ∧ r.stage ≠ .parse := by
  rw [hasStatic, decide_eq_false_iff_not, Nat.not_lt, Nat.le_zero, Nat.add_eq_zero_iff,
    count, count, List.countP_eq_zero, List.countP_eq_zero, ← forall₂_and]
  simp only [beq_iff_eq, ne_eq]

theorem Diagnostics.hasStatic_eq_false_iff {d : Diagnostics}
    (h : ∀ r ∈ d, r.stage = .scan ∨ r.stage = .parse) : d.hasStatic = false ↔ d = [] := by
  rw [hasStatic_eq_false, List.eq_nil_iff_forall_not_mem]
  constructor
  · intro hstage r hr
    rcases h r hr with hscan | hparse
    · exact (hstage r hr).1 hscan
    · exact (hstage r hr).2 hparse
  · exact fun hnone r hr => absurd hr (hnone r)

namespace Scan

theorem stage_of_mem_records {policy : Unterminated} {source : Bytes} {r : Record}
    (h : r ∈ (ofSource policy source).records) : r.stage = .scan := by
  obtain ⟨⟨line, segment⟩, -, hrecord⟩ := List.mem_filterMap.mp h
  simp only [Segment.record?] at hrecord
  split at hrecord
  · cases hrecord
    rfl
  · cases policy <;> cases hrecord
    rfl
  · cases policy <;> cases hrecord
    rfl
  · cases hrecord

private theorem kind_ne_error_of_records_eq_nil {policy : Unterminated} {source : Bytes}
    (h : (ofSource policy source).records = []) {t : Token}
    (ht : t ∈ lexed policy source) : t.kind ≠ .error := by
  obtain ⟨line, segment, hmem, -, htoken⟩ := exists_segment_of_mem_lexed ht
  have hnone : segment.record? policy line = none :=
    List.filterMap_eq_nil_iff.mp h (line, segment) hmem
  intro hkind
  cases segment with
  | lexeme kind content =>
      cases htoken
      cases hkind
      cases hnone
  | openString content =>
      cases policy <;> cases htoken
      cases hkind
  | _ => cases htoken

theorem loaded_of_mem_lexed {policy : Unterminated} {source : Bytes} {t : Token}
    (h : t ∈ lexed policy source) : t.Loaded := by
  have hvalued := (valued_of_mem_lexed h).1
  constructor
  · intro hkind
    obtain ⟨x, -, hx⟩ := hvalued.number hkind
    exact ⟨x, hx⟩
  · intro hkind
    obtain ⟨content, -, hcontent, -⟩ := hvalued.string hkind
    exact ⟨content, hcontent⟩

theorem body_ofSource (policy : Unterminated) (source : Bytes) :
    (Tokens.ofList (ofSource policy source).tokens).body = lexed policy source := by
  have hlexed : ∀ t ∈ lexed policy source, t.kind ≠ .eof :=
    fun t ht => (valued_of_mem_lexed ht).2
  rw [tokens_ofSource, Tokens.body_ofList_append hlexed]
  simp [Tokens.body_ofList, stop]

end Scan

namespace Program

open Grammar

theorem stage_of_mem_records {ts : List Token} {r : Record}
    (h : r ∈ (ofTokens ts).records) : r.stage = .parse := by
  obtain ⟨m, -, hrecord⟩ := List.mem_filterMap.mp h
  unfold Misfit.record? at hrecord
  split at hrecord
  · cases hrecord
  · cases hrecord
    rfl

theorem token_of_mem_misfits {ts : List Token} {m : Misfit}
    (h : m ∈ (ofTokens ts).misfits) :
    m.token ∈ (Tokens.ofList ts).body ∨ m.token = (Tokens.ofList ts).stop := by
  rw [misfits_ofTokens] at h
  obtain ⟨stuck, hstuck, rfl⟩ := List.mem_map.mp h
  obtain ⟨a, ha, hsome⟩ := List.mem_filterMap.mp hstuck
  cases a with
  | parsed s => cases hsome
  | failed stuck' =>
      cases hsome
      obtain ⟨start, hsuffix, -, hread⟩ := Attempt.exists_read_of_failed_mem ha
      have hrest := (Stmt.rest_suffix_of_read_error hread).trans hsuffix
      cases hcons : stuck.rest with
      | nil =>
          right
          simp [Misfit.ofStuck, hcons]
      | cons t rest =>
          left
          apply hrest.subset
          simp [Misfit.ofStuck, hcons]

theorem misfits_eq_nil_of_records {ts : List Token}
    (hkinds : ∀ t ∈ (Tokens.ofList ts).body, t.kind ≠ .error)
    (h : (ofTokens ts).records = []) : (ofTokens ts).misfits = [] := by
  rw [List.eq_nil_iff_forall_not_mem]
  intro m hm
  have hnone : m.record? = none := List.filterMap_eq_nil_iff.mp h m hm
  have hkind : m.token.kind ≠ .error := by
    rcases token_of_mem_misfits hm with hbody | hstop
    · exact hkinds m.token hbody
    · rw [hstop, Tokens.kind_stop_ofList]
      exact Kind.noConfusion
  rw [Misfit.record?, if_neg hkind] at hnone
  cases hnone

theorem statements_of_misfits_eq_nil {ts : List Token} (h : (ofTokens ts).misfits = []) :
    Statements (Tokens.ofList ts).body (ofTokens ts).stmts := by
  rw [misfits_ofTokens, List.map_eq_nil_iff, List.filterMap_eq_nil_iff] at h
  rw [← Attempt.all_eq_map_parsed_iff, stmts_ofTokens, List.map_filterMap]
  have hparsed : ∀ a ∈ Attempt.all (Tokens.ofList ts).body,
      a.stmt?.map .parsed = some a := by
    intro a ha
    cases a with
    | parsed s => rfl
    | failed stuck => cases h _ ha
  rw [List.filterMap_congr hparsed, List.filterMap_some]

theorem misfits_eq_nil_of_statements {ts : List Token} {stmts : List Stmt}
    (h : Statements (Tokens.ofList ts).body stmts) : (ofTokens ts).misfits = [] := by
  rw [misfits_ofTokens, Attempt.all_eq_map_parsed_iff.mpr h, List.filterMap_map,
    List.map_eq_nil_iff, List.filterMap_eq_nil_iff]
  intro s hs
  rfl

end Program

/-! ## Runs -/

namespace Run

open Grammar

section Start

variable (policy : Unterminated) (id source : Bytes) (console : Console)

/-- The problems that keep a source from being evaluated. -/
def obstacles : Diagnostics :=
  staticRecords (Scan.ofSource policy source)
    (Program.ofTokens (Scan.ofSource policy source).tokens)

theorem stage_of_mem_obstacles {r : Record} (h : r ∈ obstacles policy source) :
    r.stage = .scan ∨ r.stage = .parse := by
  rcases List.mem_append.mp h with hscan | hparse
  · exact .inl (Scan.stage_of_mem_records hscan)
  · exact .inr (Program.stage_of_mem_records hparse)

theorem execution_start : (start policy id .evaluation source console).execution =
    if obstacles policy source = [] then
      some (Execution.run console
        (Program.ofTokens (Scan.ofSource policy source).tokens).stmts)
    else none := by
  have hstatic :=
    Diagnostics.hasStatic_eq_false_iff (fun _ => stage_of_mem_obstacles policy source)
  change (if (obstacles policy source).hasStatic = true then none else _) = _
  by_cases hnil : obstacles policy source = []
  · rw [if_pos hnil, hstatic.mpr hnil]
    rfl
  · rw [if_neg hnil, if_pos (Bool.of_not_eq_false (mt hstatic.mp hnil))]

theorem evaluated_start_iff : (start policy id .evaluation source console).evaluated = true ↔
    obstacles policy source = [] := by
  rw [evaluated, execution_start]
  split
  · rename_i hnil
    exact ⟨fun _ => hnil, fun _ => rfl⟩
  · rename_i hsome
    exact ⟨Bool.noConfusion, fun hnil => absurd hnil hsome⟩

theorem obstacles_eq_nil_iff : obstacles policy source = [] ↔
    (Scan.ofSource policy source).records = [] ∧
      ∃ stmts, Statements (Scan.lexed policy source) stmts := by
  have hbody := Scan.body_ofSource policy source
  rw [obstacles, staticRecords, List.append_eq_nil_iff]
  constructor
  · rintro ⟨hscan, hparse⟩
    have hkinds : ∀ t ∈ (Tokens.ofList (Scan.ofSource policy source).tokens).body,
        t.kind ≠ .error := by
      rw [hbody]
      exact fun t ht => Scan.kind_ne_error_of_records_eq_nil hscan ht
    have hstatements := Program.statements_of_misfits_eq_nil
      (Program.misfits_eq_nil_of_records hkinds hparse)
    rw [hbody] at hstatements
    exact ⟨hscan, _, hstatements⟩
  · rintro ⟨hscan, stmts, hstatements⟩
    rw [← hbody] at hstatements
    refine ⟨hscan, ?_⟩
    rw [Program.records, Program.misfits_eq_nil_of_statements hstatements]
    rfl

theorem statements_of_evaluated
    (h : (start policy id .evaluation source console).evaluated = true) :
    Statements (Scan.lexed policy source)
      (start policy id .evaluation source console).program.stmts := by
  rw [evaluated_start_iff, obstacles_eq_nil_iff] at h
  obtain ⟨-, stmts, hstatements⟩ := h
  rw [← Scan.body_ofSource policy source] at hstatements ⊢
  exact Program.statements_of_misfits_eq_nil
    (Program.misfits_eq_nil_of_statements hstatements)

theorem of_not_evaluated
    (h : (start policy id .evaluation source console).evaluated = false) :
    (start policy id .evaluation source console).console console = console ∧
      (start policy id .evaluation source console).outcomes = [] ∧
      (start policy id .evaluation source console).records = obstacles policy source := by
  have hnone : (start policy id .evaluation source console).execution = none :=
    Option.isSome_eq_false_iff.mp h |> Option.isNone_iff_eq_none.mp
  refine ⟨?_, ?_, ?_⟩
  · rw [Run.console, hnone]
  · rw [outcomes, hnone]
  · rw [records, hnone, List.append_nil]
    rfl

/--
A source is evaluated exactly if scanning finds no problem and the tokens are
a program of the grammar.  If so, the statements hold every token in order.
If not, nothing is written or executed, and a problem of scanning or of
reading is recorded.
-/
theorem start_evaluation :
    ∃ (r : Run) (body : List Token) (stop : Token),
      r = start policy id .evaluation source console ∧
      ((Scan.ofSource policy source).tokens = body ++ [stop] ∧ stop.kind = .eof ∧
        ∀ t ∈ body, t.kind ≠ .eof) ∧
      (r.evaluated = true ↔
        (Scan.ofSource policy source).records = [] ∧ ∃ stmts, Statements body stmts) ∧
      (r.evaluated = true →
        Statements body r.program.stmts ∧
          List.Forall₂ Token.Shows body (r.program.stmts.flatMap Stmt.pieces)) ∧
      (r.evaluated = false →
        r.console console = console ∧ r.outcomes = [] ∧
          (∀ record ∈ r.records, record.stage ≠ .eval) ∧
          ∃ record ∈ r.records, record.stage = .scan ∨ record.stage = .parse) := by
  have hlexed : ∀ t ∈ Scan.lexed policy source, t.kind ≠ .eof :=
    fun t ht => (Scan.valued_of_mem_lexed ht).2
  refine ⟨_, Scan.lexed policy source, Scan.stop source, rfl,
    ⟨Scan.tokens_ofSource policy source, rfl, hlexed⟩, ?_, ?_, ?_⟩
  · rw [evaluated_start_iff, obstacles_eq_nil_iff]
  · intro hevaluated
    have hstatements := statements_of_evaluated policy id source console hevaluated
    exact ⟨hstatements,
      hstatements.forall₂_pieces fun t ht => Scan.loaded_of_mem_lexed ht⟩
  · intro hskipped
    obtain ⟨hconsole, houtcomes, hrecords⟩ :=
      of_not_evaluated policy id source console hskipped
    refine ⟨hconsole, houtcomes, ?_, ?_⟩
    · intro record hrecord
      rw [hrecords] at hrecord
      rcases stage_of_mem_obstacles policy source hrecord with hstage | hstage
      · simp [hstage]
      · simp [hstage]
    · have hne : obstacles policy source ≠ [] := by
        intro hnil
        rw [(evaluated_start_iff policy id source console).mpr hnil] at hskipped
        cases hskipped
      obtain ⟨record, hrecord⟩ := List.exists_mem_of_ne_nil _ hne
      rw [hrecords]
      exact ⟨record, hrecord, stage_of_mem_obstacles policy source hrecord⟩

end Start

end Run

end Scriptlet
