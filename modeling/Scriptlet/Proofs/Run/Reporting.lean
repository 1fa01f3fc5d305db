import Scriptlet.Proofs.Decimal.Digits
import Scriptlet.Proofs.Run.Order
import Scriptlet.Proofs.Text.Pieces

/-!
# Reports and their lines

A record quotes the token that it blames as it stands in the source.  Of all
tokens only strings can hold a newline, and evaluation blames operators, so a
report has one line for each record unless reading blames a string that extends
over several lines (`report_lines`).
-/

namespace Scriptlet

/-! ## Lexemes on one line -/

/-- A string that extends over several lines of the source. -/
def Token.Multiline (t : Token) : Prop := t.kind = .string ∧ newline ∈ t.lexeme

instance (t : Token) : Decidable t.Multiline :=
  inferInstanceAs (Decidable (t.kind = .string ∧ newline ∈ t.lexeme))

namespace Segment

private theorem newline_not_mem_lexeme {kind : Kind} {content : Bytes}
    (hregular : Regular (.lexeme kind content)) (hstring : kind ≠ .string) :
    newline ∉ content := by
  cases hregular with
  | operator hentry =>
      have hall : ∀ entry ∈ operators, newline ∉ entry.1 := by decide
      exact hall _ hentry
  | integer hne hwhole => exact Bytes.newline_not_mem rfl hwhole
  | decimal hne hwhole hne' hfraction =>
      have hpoint : newline ≠ Decimal.point := by decide
      simp [Bytes.newline_not_mem rfl hwhole,
        Bytes.newline_not_mem rfl hfraction, hpoint]
  | keyword hentry => exact Bytes.newline_not_mem rfl (letters_keyword hentry).2
  | identifier hne hletters hfree => exact Bytes.newline_not_mem rfl hletters
  | string hbody => exact absurd rfl hstring

private theorem newline_not_mem_of_token? {policy : Unterminated} {segment : Segment} {line : Nat}
    {t : Token} (hformed : Regular segment ∨ Foreign segment)
    (htoken : segment.token? policy line = some t) (hstring : t.kind ≠ .string)
    (herror : t.kind ≠ .error) : newline ∉ t.lexeme := by
  cases segment with
  | lexeme kind content =>
      cases htoken
      rcases hformed with hregular | hforeign
      · exact newline_not_mem_lexeme hregular hstring
      · cases hforeign <;> exact absurd rfl herror
  | openString content =>
      cases policy with
      | error => cases htoken
      | eof =>
          cases htoken
          exact absurd rfl hstring
  | _ => cases htoken

end Segment

namespace Scan

variable {policy : Unterminated} {source : Bytes} {t : Token}

theorem newline_not_mem_of_mem_lexed (h : t ∈ lexed policy source) (hstring : t.kind ≠ .string)
    (herror : t.kind ≠ .error) : newline ∉ t.lexeme := by
  obtain ⟨line, segment, -, hsegment, htoken⟩ := exists_segment_of_mem_lexed h
  have hformed := (Segment.tiles_segments source).formed segment hsegment
  exact Segment.newline_not_mem_of_token? hformed htoken hstring herror

end Scan

/-! ## Texts of records -/

theorem Token.newline_mem_site (t : Token) :
    newline ∈ t.site ↔ t.kind ≠ .eof ∧ newline ∈ t.lexeme := by
  have hend : newline ∉ utf8 " at end" := by decide
  have hopen : newline ∉ utf8 " at '" := by decide
  have hclose : newline ∉ utf8 "'" := by decide
  rw [site]
  split <;> simp [*]

theorem Record.newline_mem_text {r : Record} (hline : 0 ≤ r.line) (hmessage : newline ∉ r.message) :
    newline ∈ r.text ↔ newline ∈ r.site := by
  have hopen : newline ∉ utf8 "[line " := by decide
  have hclose : newline ∉ utf8 "] Error" := by decide
  have hcolon : newline ∉ utf8 ": " := by decide
  have hnumber : newline ∉ Bytes.ofInt r.line := by
    rw [Bytes.ofInt, if_neg (by omega)]
    exact Bytes.newline_not_mem rfl fun b => Bytes.isDigit_of_mem_ofNat
  simp [text, *]

private theorem newline_not_mem_messages {message : Bytes} (h : message ∈ Scan.messages) :
    newline ∉ message := by
  have hall : ∀ message ∈ Scan.messages, newline ∉ message := by decide
  exact hall message h

theorem Expected.newline_not_mem_message (expected : Expected) :
    newline ∉ utf8 expected.message := by
  cases expected <;> decide

theorem Rejection.newline_not_mem_message (reason : Rejection) :
    newline ∉ utf8 reason.message := by
  cases reason <;> decide

/-! ## Operators to blame -/

theorem Expr.Operable.kind_of_eval {e : Expr} (h : e.Operable) {error : RuntimeError}
    (heval : e.eval = .error (.failed error)) :
    error.op.kind ∈ Operator.unaryKinds ++ Operator.binaryKinds := by
  induction h with
  | literal value => cases heval
  | grouping h ih => exact ih heval
  | unary hop inner ih =>
      rcases eval_unary_eq_error_iff.mp heval with hoperand | ⟨v, reason, -, -, hhalt⟩
      · exact ih hoperand
      · cases hhalt
        exact List.mem_append_left _ hop
  | binary hop first second ihl ihr =>
      rcases eval_binary_eq_error_iff.mp heval with
        hleft | ⟨v, -, hright | ⟨w, reason, -, -, hhalt⟩⟩
      · exact ihl hleft
      · exact ihr hright
      · cases hhalt
        exact List.mem_append_right _ hop

private theorem Stmt.eval_of_outcome {s : Stmt} {error : RuntimeError}
    (h : s.outcome.error = some error) : s.eval = .error (.failed error) := by
  rw [outcome] at h
  split at h
  case h_1 => cases h
  case h_2 heval =>
      cases h
      exact heval
  case h_3 => cases h

theorem Stmt.Operable.kind_of_eval {s : Stmt} (h : s.Operable) {error : RuntimeError}
    (heval : s.eval = .error (.failed error)) :
    error.op.kind ∈ Operator.unaryKinds ++ Operator.binaryKinds := by
  cases h with
  | print h => exact h.kind_of_eval heval
  | expression h => exact h.kind_of_eval heval

theorem Execution.kind_of_mem_errors {stmts : List Stmt} (hs : ∀ s ∈ stmts, s.Operable)
    (c : Console) {error : RuntimeError} (h : error ∈ (run c stmts).errors) :
    error.op.kind ∈ Operator.unaryKinds ++ Operator.binaryKinds := by
  obtain ⟨o, ho, herror⟩ := List.mem_filterMap.mp h
  have houtcomes := outcomes_run_prefix (fun s h => (hs s h).complete) c
  obtain ⟨s, hmem, rfl⟩ := List.mem_map.mp (houtcomes.subset ho)
  exact (hs s hmem).kind_of_eval (Stmt.eval_of_outcome herror)

/-! ## Records of a run -/

private theorem Scan.site_of_mem_records {policy : Unterminated} {source : Bytes} {r : Record}
    (h : r ∈ (ofSource policy source).records) : r.site = [] := by
  obtain ⟨⟨line, segment⟩, -, hrecord⟩ := List.mem_filterMap.mp h
  simp only [Segment.record?] at hrecord
  split at hrecord
  · cases hrecord
    rfl
  · cases policy <;> cases hrecord
    rfl
  · cases policy <;> cases hrecord
    rfl
  · cases hrecord

theorem Misfit.newline_mem_site {policy : Unterminated} {source : Bytes} {m : Misfit} {r : Record}
    (h : m ∈ (Program.ofTokens (Scan.ofSource policy source).tokens).misfits)
    (hrecord : m.record? = some r) : newline ∈ r.site ↔ m.token.Multiline := by
  rw [record?, Option.ite_none_left_eq_some] at hrecord
  obtain ⟨herror, hrecord⟩ := hrecord
  obtain rfl : m.record = r := Option.some.inj hrecord
  change newline ∈ m.token.site ↔ _
  rw [Token.newline_mem_site]
  constructor
  · -- The end token quotes nothing, and of the tokens in front of it only strings can.
    rintro ⟨hend, hnewline⟩
    have htoken := Program.token_of_mem_misfits h
    rw [Scan.body_ofSource, Scan.stop_ofSource] at htoken
    rcases htoken with hlexed | hstop
    · refine ⟨?_, hnewline⟩
      by_contra hstring
      exact Scan.newline_not_mem_of_mem_lexed hlexed hstring herror hnewline
    · exact absurd (congrArg Token.kind hstop) hend
  · rintro ⟨hstring, hnewline⟩
    exact ⟨by simp [hstring], hnewline⟩

/-! ## Reading a report -/

theorem Record.text_eq {r : Record} (hline : 0 ≤ r.line) :
    r.text = utf8 "[line " ++ Bytes.ofNat r.line.toNat ++ utf8 "] Error" ++ r.site ++ utf8 ": "
      ++ r.message := by
  rw [text, Bytes.ofInt, if_neg (by omega), show r.line.natAbs = r.line.toNat by omega]

def Record.headed? (s : Bytes) : Option Int :=
  if (utf8 "[line ").isPrefixOf s then
    some (Bytes.digitsValue ((s.drop 6).takeWhile Bytes.isDigit))
  else none

private theorem Record.headed?_text {r : Record} (hline : 0 ≤ r.line) :
    headed? r.text = some r.line := by
  have hbracket : utf8 "] Error" = 0x5D :: utf8 " Error" := by decide
  have htext : r.text = utf8 "[line " ++ (Bytes.ofNat r.line.toNat ++
      0x5D :: (utf8 " Error" ++ r.site ++ utf8 ": " ++ r.message)) := by
    rw [text_eq hline, hbracket]
    simp only [List.append_assoc, List.cons_append]
  have hprefix : (utf8 "[line ").isPrefixOf r.text = true := by
    rw [htext, List.isPrefixOf_iff_prefix]
    exact List.prefix_append _ _
  have hdrop : r.text.drop 6 = Bytes.ofNat r.line.toNat ++
      0x5D :: (utf8 " Error" ++ r.site ++ utf8 ": " ++ r.message) := by
    rw [htext]
    exact List.drop_left' (by decide)
  have hnumber : (r.text.drop 6).takeWhile Bytes.isDigit = Bytes.ofNat r.line.toNat := by
    rw [hdrop, List.takeWhile_append_of_pos fun b => Bytes.isDigit_of_mem_ofNat,
      List.takeWhile_cons_of_neg (by decide), List.append_nil]
  rw [headed?, if_pos hprefix, hnumber, Bytes.digitsValue_ofNat, Int.toNat_of_nonneg hline]

/-- What a reader of a report learns: a number for each line that begins with one. -/
def Diagnostics.reread (report : Bytes) : List Int :=
  (Bytes.pieces report).filterMap Record.headed?

private theorem Diagnostics.filterMap_headed? {d : Diagnostics} (hline : ∀ x ∈ d, 0 ≤ x.line) :
    (d.map Record.text).filterMap Record.headed? = d.map Record.line := by
  rw [List.filterMap_map, ← List.filterMap_eq_map]
  exact List.filterMap_congr fun x hx => Record.headed?_text (hline x hx)

namespace Run

variable (policy : Unterminated) (id source : Bytes) (console : Console)

private theorem newline_not_mem_site_of_failures {x : Record}
    (h : x ∈ (start policy id .evaluation source console).failures) : newline ∉ x.site := by
  obtain ⟨error, herror, rfl⟩ := List.mem_map.mp h
  have hlexed : error.op ∈ Scan.lexed policy source :=
    (sublist_ops_start policy id source console).subset (List.mem_map_of_mem herror)
  have hkind : error.op.kind ∈ Operator.unaryKinds ++ Operator.binaryKinds := by
    cases hexecution : (start policy id .evaluation source console).execution with
    | none => simp [outcomes, hexecution] at herror
    | some x =>
        rw [outcomes, hexecution, execution_start_eq policy id .evaluation source console
          hexecution] at herror
        exact Execution.kind_of_mem_errors
          (fun s => operable_of_mem_start policy id .evaluation source console) console herror
  have hnone : Kind.string ∉ Operator.unaryKinds ++ Operator.binaryKinds ∧
      Kind.error ∉ Operator.unaryKinds ++ Operator.binaryKinds := by decide
  intro hnewline
  refine Scan.newline_not_mem_of_mem_lexed hlexed ?_ ?_
    ((Token.newline_mem_site error.op).mp hnewline).2
  · exact fun hstring => hnone.1 (hstring ▸ hkind)
  · exact fun herror => hnone.2 (herror ▸ hkind)

theorem newline_not_mem_message {x : Record}
    (h : x ∈ (start policy id .evaluation source console).records) : newline ∉ x.message := by
  rw [records_eq, List.mem_append, List.mem_append] at h
  rcases h with (hscan | hparse) | hrun
  · exact newline_not_mem_messages (Scan.message_of_mem_records hscan)
  · obtain ⟨m, -, hrecord⟩ := List.mem_filterMap.mp hparse
    rw [Misfit.record?, Option.ite_none_left_eq_some] at hrecord
    cases hrecord.2
    exact m.expected.newline_not_mem_message
  · obtain ⟨error, -, rfl⟩ := List.mem_map.mp hrun
    exact error.reason.newline_not_mem_message

theorem newline_mem_text_iff {x : Record}
    (h : x ∈ (start policy id .evaluation source console).records) :
    newline ∈ x.text ↔
      ∃ m ∈ (start policy id .evaluation source console).program.misfits,
        m.record? = some x ∧ m.token.Multiline := by
  have hline := (line_of_mem_start policy id source console h).1
  rw [Record.newline_mem_text (by omega) (newline_not_mem_message policy id source console h)]
  constructor
  · intro hsite
    rw [records_eq, List.mem_append, List.mem_append] at h
    rcases h with (hscan | hparse) | hrun
    · rw [Scan.site_of_mem_records hscan] at hsite
      cases hsite
    · obtain ⟨m, hm, hrecord⟩ := List.mem_filterMap.mp hparse
      exact ⟨m, hm, hrecord, (Misfit.newline_mem_site hm hrecord).mp hsite⟩
    · exact absurd hsite (newline_not_mem_site_of_failures policy id source console hrun)
  · rintro ⟨m, hm, hrecord, hmultiline⟩
    exact (Misfit.newline_mem_site hm hrecord).mpr hmultiline

private theorem pieces_report
    (hne : (start policy id .evaluation source console).records ≠ []) :
    Bytes.pieces (start policy id .evaluation source console).report =
        (start policy id .evaluation source console).records.map Record.text ↔
      ∀ m ∈ (start policy id .evaluation source console).program.misfits,
        ¬m.token.Multiline := by
  have htext := fun x hx => newline_mem_text_iff policy id source console (x := x) hx
  constructor
  · intro hpieces m hm hmultiline
    have hrecorded : m.record? = some m.record := by
      rw [Misfit.record?, if_neg (by simp [hmultiline.1])]
    have hx : m.record ∈ (start policy id .evaluation source console).records := by
      rw [records_eq]
      exact List.mem_append_left _ (List.mem_append_right _
        (List.mem_filterMap.mpr ⟨m, hm, hrecorded⟩))
    have hbroken := (htext m.record hx).mpr ⟨m, hm, hrecorded, hmultiline⟩
    exact Bytes.not_mem_of_mem_pieces (hpieces ▸ List.mem_map_of_mem hx) hbroken
  · intro hsingle
    refine Bytes.pieces_join (fun line hmem => ?_) (by simpa using hne)
    obtain ⟨x, hx, rfl⟩ := List.mem_map.mp hmem
    intro hnewline
    obtain ⟨m, hm, -, hmultiline⟩ := (htext x hx).mp hnewline
    exact hsingle m hm hmultiline

/--
A report is the texts of the records with newlines between them.  A text holds a
newline if and only if the record blames a string that extends over several lines.
If there is no such record, and only then, the report has one line a record; its
lines then tell the number of the records and where each of them was found.
Evaluation blames no string.
-/
theorem report_lines :
    ∃ r : Run, r = start policy id .evaluation source console ∧
      r.report = Bytes.join [newline] (r.records.map Record.text) ∧
      (∀ x ∈ r.records, x.text = utf8 "[line " ++ Bytes.ofNat x.line.toNat ++ utf8 "] Error"
        ++ x.site ++ utf8 ": " ++ x.message) ∧
      (∀ x ∈ r.records, newline ∈ x.text ↔
        ∃ m ∈ r.program.misfits, m.record? = some x ∧ m.token.Multiline) ∧
      (r.records ≠ [] → (Bytes.pieces r.report = r.records.map Record.text ↔
        ∀ m ∈ r.program.misfits, ¬m.token.Multiline)) ∧
      ((∀ m ∈ r.program.misfits, ¬m.token.Multiline) →
        Diagnostics.reread r.report = r.records.map Record.line) ∧
      (r.evaluated = true → r.program.misfits = []) := by
  have hline : ∀ x ∈ (start policy id .evaluation source console).records, 0 ≤ x.line :=
    fun x hx => by
      have hbounds := line_of_mem_start policy id source console hx
      omega
  have htext := fun x hx => newline_mem_text_iff policy id source console (x := x) hx
  have hpieces := pieces_report policy id source console
  refine ⟨_, rfl, rfl, fun x hx => Record.text_eq (hline x hx), htext, hpieces, ?_, ?_⟩
  · intro hsingle
    by_cases hnone : (start policy id .evaluation source console).records = []
    · rw [report, hnone]
      rfl
    · rw [Diagnostics.reread, (hpieces hnone).mpr hsingle]
      exact Diagnostics.filterMap_headed? hline
  · intro hevaluated
    have hstatements := statements_of_evaluated policy id source console hevaluated
    rw [← Scan.body_ofSource policy source] at hstatements
    exact Program.misfits_eq_nil_of_statements hstatements

/-- A foreign character on the first line, and a string that is blamed on the second. -/
theorem report_lines_of_two_records :
    ∃ r : Run, r = start .error [] .evaluation (utf8 "@;\n1 \"a\";") {} ∧
      (∀ m ∈ r.program.misfits, ¬m.token.Multiline) ∧ r.records.length = 2 ∧
      Diagnostics.reread r.report = [1, 2] := by
  obtain ⟨r, rfl, -, -, -, -, hreread, -⟩ :=
    report_lines .error [] (utf8 "@;\n1 \"a\";") {}
  have hsingle : ∀ m ∈ (start .error [] .evaluation (utf8 "@;\n1 \"a\";") {}).program.misfits,
      ¬m.token.Multiline := by decide +kernel
  refine ⟨_, rfl, hsingle, by decide +kernel, (hreread hsingle).trans ?_⟩
  decide +kernel

/-- One record, whose text takes up two lines. -/
theorem report_breaks_at_multiline_string :
    ∃ (r : Run) (x : Record),
      r = start .error [] .evaluation (utf8 "1 \"a\nb\";") {} ∧ r.records = [x] ∧
      newline ∈ x.text ∧ (Bytes.pieces r.report).length = 2 := by
  refine ⟨_, ⟨.parse, 2, utf8 " at '\"a\nb\"'", utf8 "Expect ';' after expression."⟩, rfl,
    ?_, ?_, ?_⟩ <;> decide +kernel

end Run

end Scriptlet
