import Scriptlet.Proofs.Run.Composition
import Scriptlet.Proofs.Text.Pieces

/-!
# Strings pass through a run

Whatever bytes stand between two quotes reach the output as they are.  The
program that prints a sum of string literals is scanned into one token a
literal, read as a left-leaning tree and evaluated to the texts in order
(`transcript_printing`).
-/

namespace Scriptlet

def Bytes.enclosed (s : Bytes) : Bytes := quote :: s ++ [quote]

def printing (parts : List Bytes) : Bytes :=
  utf8 "print " ++ Bytes.join (utf8 " + ") (parts.map Bytes.enclosed) ++ utf8 ";"

/-! ## Segments -/

namespace Segment

private theorem segments_print (more : Bytes) :
    segments (utf8 "print " ++ more) =
      .lexeme .kwPrint (utf8 "print") :: .blank space :: segments more := by
  have hspace : next space more = (.blank space, more) := next_of_isBlank more (by decide)
  have hword : next 0x70 (utf8 "rint " ++ more) =
      (.lexeme .kwPrint (utf8 "print"), space :: more) := by
    rw [next_of_isLetter _ (by decide)]
    rfl
  change segments (0x70 :: (utf8 "rint " ++ more)) = _
  rw [segments_cons, hword, segments_cons, hspace]

private theorem segments_plus (more : Bytes) :
    segments (utf8 " + " ++ more) =
      .blank space :: .lexeme .plus (utf8 "+") :: .blank space :: segments more := by
  have hspace (more : Bytes) : segments (space :: more) = .blank space :: segments more := by
    rw [segments_cons, next_of_isBlank more (by decide)]
  change segments (space :: 0x2B :: space :: more) = _
  rw [hspace, segments_cons, next_of_single _ rfl, hspace]
  rfl

theorem segments_enclosed {s : Bytes} (hs : quote ∉ s) (more : Bytes) :
    segments (s.enclosed ++ more) = .lexeme .string s.enclosed :: segments more := by
  have hrun := bne_of_not_mem hs
  have hcut : next quote (s ++ quote :: more) = (.lexeme .string s.enclosed, more) := by
    simp [next_quote, afterQuote, List.dropWhile_append_of_pos hrun,
      List.takeWhile_append_of_pos hrun, Bytes.enclosed]
  have hsource : s.enclosed ++ more = quote :: (s ++ quote :: more) := by
    simp [Bytes.enclosed]
  rw [hsource, segments_cons, hcut]

private theorem segments_semicolon : segments (utf8 ";") = [.lexeme .semicolon (utf8 ";")] := by
  change segments [0x3B] = _
  rw [segments_cons, next_of_single _ rfl, segments_nil]
  rfl

def addend (s : Bytes) : List Segment :=
  [.blank space, .lexeme .plus (utf8 "+"), .blank space, .lexeme .string s.enclosed]

private theorem segments_addends {parts : List Bytes} (hparts : ∀ s ∈ parts, quote ∉ s)
    (more : Bytes) :
    segments ((parts.map Bytes.enclosed).flatMap (utf8 " + " ++ ·) ++ more) =
      parts.flatMap addend ++ segments more := by
  induction parts with
  | nil => rfl
  | cons s parts ih =>
      have hlater := ih fun t ht => hparts t (List.mem_cons_of_mem _ ht)
      rw [List.map_cons, List.flatMap_cons, List.append_assoc, List.append_assoc,
        segments_plus, segments_enclosed (hparts s List.mem_cons_self), hlater]
      rfl

theorem segments_printing {s : Bytes} {parts : List Bytes} (hs : quote ∉ s)
    (hparts : ∀ t ∈ parts, quote ∉ t) :
    segments (printing (s :: parts)) =
      .lexeme .kwPrint (utf8 "print") :: .blank space :: .lexeme .string s.enclosed ::
        (parts.flatMap addend ++ [.lexeme .semicolon (utf8 ";")]) := by
  rw [printing, List.map_cons, Bytes.join_cons, List.append_assoc, List.append_assoc,
    segments_print, segments_enclosed hs, segments_addends hparts, segments_semicolon]

end Segment

/-! ## Tokens and trees -/

namespace Segment

theorem payload_enclosed (s : Bytes) : payload .string s.enclosed = .text s := by
  simp [payload, Bytes.enclosed]

private theorem tokens_addend (policy : Unterminated) (line : Nat) (s : Bytes) :
    ∃ op t : Token,
      (numberedFrom line (addend s)).filterMap
        (fun (line, segment) => segment.token? policy line) = [op, t] ∧
      op.kind = .plus ∧ t.kind = .string ∧ t.payload = .text s :=
  ⟨_, _, rfl, rfl, rfl, payload_enclosed s⟩

end Segment

namespace Grammar

theorem derives_string (p : Phrase) {t : Token} (hkind : t.kind = .string) {s : Bytes}
    (hpayload : t.payload = .text s) : Derives p [t] (.literal (.text s)) := by
  have hvalue : t.textValue = s := by simp [Token.textValue, hpayload]
  have hderives : Derives .primary [t] (.literal (.text t.textValue)) := .string hkind
  rw [hvalue] at hderives
  apply hderives.weaken
  cases p with
  | tier tier => cases tier <;> decide
  | unary => decide
  | primary => decide

private theorem exists_derives_addends (policy : Unterminated) (line : Nat) (parts : List Bytes)
    {ts : List Token} {e : Expr} {x : Bytes} (h : Derives (.tier .term) ts e)
    (heval : e.eval = .ok (.text x)) :
    ∃ sum, Derives (.tier .term)
        (ts ++ (Segment.numberedFrom line (parts.flatMap Segment.addend)).filterMap
          fun (line, segment) => segment.token? policy line) sum ∧
      sum.eval = .ok (.text (x ++ parts.flatten)) := by
  induction parts generalizing line ts e x with
  | nil => exact ⟨e, by simpa [Segment.numberedFrom] using h, by simpa using heval⟩
  | cons s parts ih =>
      obtain ⟨op, t, htokens, hop, hkind, hpayload⟩ := Segment.tokens_addend policy line s
      have hoperator : op.kind ∈ Tier.term.operators := by
        rw [hop]
        decide
      have hlonger := h.extend hoperator (derives_string Tier.term.operand hkind hpayload)
      have hvalue : (Expr.binary e op (.literal (.text s))).eval = .ok (.text (x ++ s)) := by
        simp [Expr.eval, heval, hop, Operator.binary]
      obtain ⟨sum, hsum, hsumvalue⟩ :=
        ih (line + Bytes.countNewlines ((Segment.addend s).flatMap Segment.text)) hlonger hvalue
      refine ⟨sum, ?_, ?_⟩
      · rw [List.flatMap_cons, Segment.numberedFrom_append, List.filterMap_append, htokens]
        simpa using hsum
      · simpa using hsumvalue

end Grammar

/-! ## Runs -/

section Printing

variable {s : Bytes} {parts : List Bytes} (hs : quote ∉ s) (hparts : ∀ t ∈ parts, quote ∉ t)
include hs hparts

private theorem Scan.records_printing (policy : Unterminated) :
    (ofSource policy (printing (s :: parts))).records = [] := by
  rw [ofSource, List.filterMap_eq_nil_iff]
  rintro ⟨line, segment⟩ hmem
  have hsegment : segment ∈ Segment.segments (printing (s :: parts)) := by
    rw [← Segment.map_snd_numbered _]
    exact List.mem_map_of_mem hmem
  rw [Segment.segments_printing hs hparts] at hsegment
  simp only [List.mem_cons, List.mem_append, List.mem_flatMap, Segment.addend,
    List.not_mem_nil, or_false] at hsegment
  rcases hsegment with rfl | rfl | rfl | ⟨t, -, rfl | rfl | rfl | rfl⟩ | rfl <;> rfl

private theorem Scan.lexed_printing (policy : Unterminated) :
    ∃ (line : Nat) (keyword first semicolon : Token),
      lexed policy (printing (s :: parts)) =
        keyword :: ([first] ++
          (Segment.numberedFrom line (parts.flatMap Segment.addend)).filterMap
            fun (line, segment) => segment.token? policy line) ++ [semicolon] ∧
      keyword.kind = .kwPrint ∧ first.kind = .string ∧ first.payload = .text s ∧
      semicolon.kind = .semicolon := by
  have hlexed : lexed policy (printing (s :: parts)) =
      (Segment.numberedFrom 1 (Segment.segments (printing (s :: parts)))).filterMap
        fun (line, segment) => segment.token? policy line := by
    rw [lexed, Segment.numbered_eq]
  rw [Segment.segments_printing hs hparts] at hlexed
  simp only [Segment.numberedFrom, Segment.numberedFrom_append, List.filterMap_cons,
    List.filterMap_append, Segment.token?] at hlexed
  exact ⟨_, _, _, _, hlexed, rfl, rfl, Segment.payload_enclosed s, rfl⟩

private theorem Scan.exists_statements_printing (policy : Unterminated) :
    ∃ sum : Expr, Grammar.Statements (lexed policy (printing (s :: parts))) [.print sum] ∧
      sum.eval = .ok (.text (s :: parts).flatten) := by
  obtain ⟨line, keyword, first, semicolon, hlexed, hkeyword, hkind, hpayload, hsemicolon⟩ :=
    lexed_printing hs hparts policy
  have hfirst := Grammar.derives_string (.tier .term) hkind hpayload
  obtain ⟨sum, hderives, hsum⟩ :=
    Grammar.exists_derives_addends policy line parts hfirst rfl
  have hstatement := Grammar.Statement.print hkeyword (hderives.weaken (by decide)) hsemicolon
  refine ⟨sum, ?_, hsum⟩
  rw [hlexed, ← List.append_nil (_ ++ [semicolon])]
  exact .cons hstatement .nil

end Printing

namespace Run

/--
A program that prints a sum of string literals prints their texts in order and
a newline, and there is nothing to report.
-/
theorem transcript_printing {parts : List Bytes} (hne : parts ≠ [])
    (hparts : ∀ s ∈ parts, quote ∉ s) :
    transcript (printing parts) = parts.flatten ++ [newline] ∧
      (start .error [] .evaluation (printing parts) {}).records = [] := by
  obtain ⟨s, parts, rfl⟩ := List.exists_cons_of_ne_nil hne
  have hs := hparts s List.mem_cons_self
  have hlater := fun t ht => hparts t (List.mem_cons_of_mem s ht)
  obtain ⟨sum, hstatements, hsum⟩ := Scan.exists_statements_printing hs hlater .error
  have hclean : obstacles .error (printing (s :: parts)) = [] :=
    (obstacles_eq_nil_iff .error _).mpr
      ⟨Scan.records_printing hs hlater .error, _, hstatements⟩
  have hstmts : stmts .error (printing (s :: parts)) = [.print sum] := by
    apply Program.stmts_of_statements
    rwa [Scan.body_ofSource]
  have hunlimited : ({} : Console).limit .stdout = none := rfl
  have hrecords : (start .error [] .evaluation (printing (s :: parts)) {}).records = [] := by
    rw [records_of_unlimited [] hclean hunlimited, outcomes_of_unlimited [] hclean hunlimited,
      hstmts]
    simp [Stmt.outcome, Stmt.eval, hsum]
  have hwritten : (start .error [] .evaluation (printing (s :: parts)) {}).written {} =
      (s :: parts).flatten ++ [newline] := by
    rw [written_of_unlimited [] hclean hunlimited, hstmts]
    simp [Stmt.line?, Stmt.isPrint, Stmt.eval, hsum, Value.shown]
  refine ⟨?_, hrecords⟩
  have hreport : (start .error [] .evaluation (printing (s :: parts)) {}).report = [] := by
    rw [report, hrecords]
    rfl
  rw [transcript]
  simp only [hreport, List.isEmpty_nil, if_true, List.append_nil]
  exact hwritten

/-- A newline and a zero byte, a stray byte, nothing, and the start of a comment. -/
theorem transcript_printing_odd_bytes :
    (∀ s ∈ [[newline, 0], [0xFF], [], utf8 "/*"], quote ∉ s) ∧
      transcript (printing [[newline, 0], [0xFF], [], utf8 "/*"]) =
        [newline, 0, 0xFF] ++ utf8 "/*\n" := by
  have hfree : ∀ s ∈ [[newline, 0], [0xFF], [], utf8 "/*"], quote ∉ s := by decide
  refine ⟨hfree, (transcript_printing (List.cons_ne_nil _ _) hfree).1.trans ?_⟩
  decide

end Run

end Scriptlet
