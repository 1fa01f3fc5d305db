import Mathlib
import Scriptlet.Proofs.Decimal.Digits
import Scriptlet.Proofs.Run.Acceptance
import Scriptlet.Proofs.Tree.Parentheses

/-!
# The printed form of trees

Printing forgets where a tree stands in its source and how its numbers were
written.  It forgets nothing else unless there are strings: the text in front of a
longer one tells the tree and where its text ends (`shownBefore_inj`), so equal
texts come from equal trees (`shown_eq_iff`).
-/

namespace Scriptlet

/-! ## Words -/

def isBreak (b : UInt8) : Bool := b == space || b == 0x28 || b == 0x29

structure Word (s : Bytes) : Prop where
  ne_nil : s ≠ []
  unbroken : ∀ b ∈ s, isBreak b = false

instance (s : Bytes) : Decidable (Word s) :=
  decidable_of_iff (s ≠ [] ∧ (s.all fun b => !isBreak b) = true) <| by
    simp only [List.all_eq_true, Bool.not_eq_true']
    exact ⟨fun ⟨hne, hall⟩ => ⟨hne, hall⟩, fun h => ⟨h.ne_nil, h.unbroken⟩⟩

def Breaks (rest : Bytes) : Prop := ∀ b ∈ rest.head?, isBreak b = true

theorem breaks_nil : Breaks [] := by simp [Breaks]

theorem breaks_cons {b : UInt8} {rest : Bytes} (hb : isBreak b = true) : Breaks (b :: rest) := by
  simpa [Breaks] using hb

/-- Where a word ends is told by what follows it. -/
theorem append_inj_of_breaks {s t rest more : Bytes} (hs : ∀ b ∈ s, isBreak b = false)
    (ht : ∀ b ∈ t, isBreak b = false) (hrest : Breaks rest) (hmore : Breaks more)
    (h : s ++ rest = t ++ more) : s = t ∧ rest = more := by
  induction s generalizing t with
  | nil =>
      cases t with
      | nil => exact ⟨rfl, h⟩
      | cons c t =>
          have hbreak := hrest c (by simp [show rest = _ from h])
          simp [ht c List.mem_cons_self] at hbreak
  | cons b s ih =>
      cases t with
      | nil =>
          have hbreak := hmore b (by simp [show more = _ from h.symm])
          simp [hs b List.mem_cons_self] at hbreak
      | cons c t =>
          obtain ⟨rfl, htail⟩ := List.cons.inj h
          obtain ⟨rfl, hends⟩ := ih (fun b hb => hs b (List.mem_cons_of_mem _ hb))
            (fun c hc => ht c (List.mem_cons_of_mem _ hc)) htail
          exact ⟨rfl, hends⟩

theorem Word.append_ne_paren {s rest more : Bytes} (h : Word s) :
    s ++ rest ≠ 0x28 :: more := by
  cases s with
  | nil => exact absurd rfl h.ne_nil
  | cons b s =>
      intro heq
      have hb := h.unbroken b List.mem_cons_self
      rw [(List.cons.inj heq).1] at hb
      cases hb

theorem Word.head_inj {s t rest more : Bytes} (hs : Word s) (ht : Word t)
    (h : 0x28 :: s ++ space :: rest = 0x28 :: t ++ space :: more) : s = t ∧ rest = more := by
  have htail : s ++ space :: rest = t ++ space :: more := (List.cons.inj h).2
  obtain ⟨rfl, hrest⟩ := append_inj_of_breaks hs.unbroken ht.unbroken
    (breaks_cons rfl) (breaks_cons rfl) htail
  exact ⟨rfl, (List.cons.inj hrest).2⟩

/-! ## Numbers -/

namespace Decimal

private theorem word_write_plain (x : Float) : Word (plain.write x) where
  ne_nil := (write_plain x).1
  unbroken b hb := by
    cases hbreak : isBreak b with
    | false => rfl
    | true =>
        simp only [isBreak, Bool.or_eq_true, beq_iff_eq] at hbreak
        rcases hbreak with (rfl | rfl) | rfl <;>
          exact absurd hb (not_mem_write_plain (by decide) (by decide))

end Decimal

/-! ## Values -/

/-- The same value, or two numbers with the same text. -/
inductive Value.Resembles : Value → Value → Prop
  | refl (v : Value) : Resembles v v
  | number {x y : Float} (h : Decimal.plain.write x = Decimal.plain.write y) :
      Resembles (.number x) (.number y)

namespace Value

variable {v w : Value}

theorem word_shown (h : ∀ s, v ≠ .text s) : Word v.shown := by
  have hboolean (b : Bool) : Word (boolean b).shown := by
    cases b <;> decide
  cases v with
  | nil => decide
  | boolean b => exact hboolean b
  | number x => exact Decimal.word_write_plain x
  | text s => exact absurd rfl (h s)

theorem Resembles.shown_eq (h : v.Resembles w) : v.shown = w.shown := by
  cases h with
  | refl v => rfl
  | number h => exact h

theorem write_plain_ne_shown (x : Float) (b : Bool) :
    Decimal.plain.write x ≠ nil.shown ∧ Decimal.plain.write x ≠ (boolean b).shown := by
  have hl : 0x6C ∉ Decimal.plain.write x :=
    Decimal.not_mem_write_plain (by decide) (by decide)
  have he : 0x65 ∉ Decimal.plain.write x :=
    Decimal.not_mem_write_plain (by decide) (by decide)
  have hnil : 0x6C ∈ nil.shown := by decide
  have hboolean : 0x65 ∈ (boolean b).shown := by cases b <;> decide
  exact ⟨fun h => hl (h ▸ hnil), fun h => he (h ▸ hboolean)⟩

private theorem resembles_of_shown (hv : ∀ s, v ≠ .text s) (hw : ∀ s, w ≠ .text s)
    (h : v.shown = w.shown) : v.Resembles w := by
  cases v with
  | text s => exact absurd rfl (hv s)
  | nil =>
      cases w with
      | nil => exact .refl nil
      | boolean b => cases b <;> exact absurd h (by decide)
      | number x => exact absurd h.symm (write_plain_ne_shown x true).1
      | text s => exact absurd rfl (hw s)
  | boolean b =>
      cases w with
      | nil => cases b <;> exact absurd h (by decide)
      | boolean c =>
          have hsame : b = c := by
            cases b <;> cases c <;> first | rfl | exact absurd h (by decide)
          exact hsame ▸ .refl _
      | number x => exact absurd h.symm (write_plain_ne_shown x b).2
      | text s => exact absurd rfl (hw s)
  | number x =>
      cases w with
      | nil => exact absurd h (write_plain_ne_shown x true).1
      | boolean b => exact absurd h (write_plain_ne_shown x b).2
      | number y => exact .number h
      | text s => exact absurd rfl (hw s)

end Value

/-! ## Operators -/

namespace Token

def Matches (t u : Token) : Prop :=
  t.kind = u.kind ∧ t.lexeme = u.lexeme ∧ t.payload = u.payload

structure IsSign (t : Token) : Prop where
  known : t.kind ∈ Operator.unaryKinds ++ Operator.binaryKinds
  spelled : (t.lexeme, t.kind) ∈ Segment.operators
  payload : t.payload = .none

variable {t u : Token}

theorem IsSign.word (h : t.IsSign) : Word t.lexeme ∧ t.lexeme ≠ utf8 "group" := by
  have hall : ∀ entry ∈ Segment.operators,
      entry.2 ∈ Operator.unaryKinds ++ Operator.binaryKinds →
        Word entry.1 ∧ entry.1 ≠ utf8 "group" := by
    decide
  exact hall _ h.spelled h.known

theorem IsSign.matches_of_lexeme (ht : t.IsSign) (hu : u.IsSign) (h : t.lexeme = u.lexeme) :
    t.Matches u := by
  have hall : ∀ entry ∈ Segment.operators, ∀ other ∈ Segment.operators,
      entry.1 = other.1 → entry.2 = other.2 := by decide
  exact ⟨hall _ ht.spelled _ hu.spelled h, h, ht.payload.trans hu.payload.symm⟩

end Token

private theorem Segment.spelled_of_token? {policy : Unterminated} {segment : Segment} {line : Nat}
    {t : Token} (hformed : Regular segment ∨ Foreign segment)
    (htoken : segment.token? policy line = some t)
    (hkind : t.kind ∈ Operator.unaryKinds ++ Operator.binaryKinds) :
    (t.lexeme, t.kind) ∈ operators := by
  -- Only the tokens of operators have a kind that evaluation knows.
  have hnone : Kind.number ∉ Operator.unaryKinds ++ Operator.binaryKinds ∧
      Kind.string ∉ Operator.unaryKinds ++ Operator.binaryKinds ∧
      Kind.identifier ∉ Operator.unaryKinds ++ Operator.binaryKinds ∧
      Kind.error ∉ Operator.unaryKinds ++ Operator.binaryKinds ∧
      ∀ entry ∈ Kind.keywords, entry.2 ∉ Operator.unaryKinds ++ Operator.binaryKinds := by
    decide
  obtain ⟨hnumber, hstring, hidentifier, herror, hkeyword⟩ := hnone
  rcases hformed with hregular | hforeign
  · cases hregular with
    | operator hentry =>
        cases htoken
        exact hentry
    | integer hne hwhole =>
        cases htoken
        exact absurd hkind hnumber
    | decimal hne hwhole hne' hfraction =>
        cases htoken
        exact absurd hkind hnumber
    | keyword hentry =>
        cases htoken
        exact absurd hkind (hkeyword _ hentry)
    | identifier hne hletters hfree =>
        cases htoken
        exact absurd hkind hidentifier
    | string hbody =>
        cases htoken
        exact absurd hkind hstring
    | openString hbody =>
        cases policy <;> cases htoken
        exact absurd hkind hstring
    | _ => cases htoken
  · cases hforeign <;> cases htoken <;> exact absurd hkind herror

private theorem Scan.isSign_of_mem_lexed {policy : Unterminated} {source : Bytes} {t : Token}
    (h : t ∈ lexed policy source) (hkind : t.kind ∈ Operator.unaryKinds ++ Operator.binaryKinds) :
    t.IsSign := by
  obtain ⟨line, segment, -, hsegment, htoken⟩ := exists_segment_of_mem_lexed h
  have hformed := (Segment.tiles_segments source).formed segment hsegment
  have hspelled := Segment.spelled_of_token? hformed htoken hkind
  have hplain : ∀ entry ∈ Segment.operators, entry.2 ≠ .number ∧ entry.2 ≠ .string := by decide
  obtain ⟨hnumber, hstring⟩ := hplain _ hspelled
  exact ⟨hkind, hspelled, (valued_of_mem_lexed h).1.plain hnumber hstring⟩

/-! ## Expressions -/

namespace Expr

/-- Equal up to lines and up to numbers with the same text. -/
inductive Resembles : Expr → Expr → Prop
  | literal {v w : Value} (h : v.Resembles w) : Resembles (.literal v) (.literal w)
  | unary {op op' : Token} {operand operand' : Expr} (hop : op.Matches op')
      (inner : Resembles operand operand') : Resembles (.unary op operand) (.unary op' operand')
  | binary {op op' : Token} {left left' right right' : Expr} (hop : op.Matches op')
      (first : Resembles left left') (second : Resembles right right') :
      Resembles (.binary left op right) (.binary left' op' right')
  | grouping {inner inner' : Expr} (h : Resembles inner inner') :
      Resembles (.grouping inner) (.grouping inner')

def Textless : Expr → Prop
  | missing => True
  | literal value => ∀ s, value ≠ .text s
  | unary _ operand => operand.Textless
  | binary left _ right => left.Textless ∧ right.Textless
  | grouping inner => inner.Textless

inductive Signed : Expr → Prop
  | literal (value : Value) : Signed (.literal value)
  | unary {op : Token} {operand : Expr} (hop : op.IsSign) (inner : Signed operand) :
      Signed (.unary op operand)
  | binary {op : Token} {left right : Expr} (hop : op.IsSign) (first : Signed left)
      (second : Signed right) : Signed (.binary left op right)
  | grouping {inner : Expr} (h : Signed inner) : Signed (.grouping inner)

theorem Operable.signed {e : Expr} (h : e.Operable)
    (hops : ∀ op, .operator op ∈ e.pieces →
      op.kind ∈ Operator.unaryKinds ++ Operator.binaryKinds → op.IsSign) : e.Signed := by
  induction h with
  | literal value => exact .literal value
  | unary hop inner ih =>
      exact .unary (hops _ (by simp [pieces]) (List.mem_append_left _ hop))
        (ih fun op hmem => hops op (by simp [pieces, hmem]))
  | binary hop first second ihl ihr =>
      exact .binary (hops _ (by simp [pieces]) (List.mem_append_right _ hop))
        (ihl fun op hmem => hops op (by simp [pieces, hmem]))
        (ihr fun op hmem => hops op (by simp [pieces, hmem]))
  | grouping h ih => exact .grouping (ih fun op hmem => hops op (by simp [pieces, hmem]))

theorem Resembles.shown_eq {e f : Expr} (h : e.Resembles f) : e.shown = f.shown := by
  induction h with
  | literal h => simp [h.shown_eq]
  | unary hop inner ih => simp [hop.2.1, ih]
  | binary hop first second ihl ihr => simp [hop.2.1, ihl, ihr]
  | grouping h ih => simp [ih]

theorem shownBefore_inj {e f : Expr} (he : e.Signed) (hf : f.Signed) (hte : e.Textless)
    (htf : f.Textless) {rest more : Bytes} (hrest : Breaks rest) (hmore : Breaks more)
    (h : e.shownBefore rest = f.shownBefore more) : e.Resembles f ∧ rest = more := by
  have hclose {rest : Bytes} : Breaks (0x29 :: rest) := breaks_cons rfl
  have hblank {rest : Bytes} : Breaks (space :: rest) := breaks_cons rfl
  have hgroup : Word (utf8 "group") := by decide
  -- The texts behind the trees vary in the induction: an operand gives back what stands
  -- behind it, a parenthesis or the blank in front of a right operand.
  induction he generalizing f rest more with
  | literal v =>
      have hv := Value.word_shown hte
      cases hf with
      | literal w =>
          have hw := Value.word_shown htf
          obtain ⟨hshown, hends⟩ := append_inj_of_breaks hv.unbroken hw.unbroken hrest hmore h
          exact ⟨.literal (Value.resembles_of_shown hte htf hshown), hends⟩
      | unary hop inner => exact absurd h hv.append_ne_paren
      | binary hop first second => exact absurd h hv.append_ne_paren
      | grouping inner => exact absurd h hv.append_ne_paren
  | unary hop inner ih =>
      cases hf with
      | literal w => exact absurd h.symm (Value.word_shown htf).append_ne_paren
      | unary hop' inner' =>
          obtain ⟨hlexeme, hbody⟩ := hop.word.1.head_inj hop'.word.1 h
          obtain ⟨hsame, hends⟩ := ih inner' hte htf hclose hclose hbody
          exact ⟨.unary (hop.matches_of_lexeme hop' hlexeme) hsame, (List.cons.inj hends).2⟩
      | binary hop' first' second' =>
          obtain ⟨-, hbody⟩ := hop.word.1.head_inj hop'.word.1 h
          obtain ⟨-, hends⟩ := ih first' hte htf.1 hclose hblank hbody
          exact absurd (List.cons.inj hends).1 (by decide)
      | grouping inner' => exact absurd (hop.word.1.head_inj hgroup h).1 hop.word.2
  | binary hop first second ihl ihr =>
      cases hf with
      | literal w => exact absurd h.symm (Value.word_shown htf).append_ne_paren
      | unary hop' inner' =>
          obtain ⟨-, hbody⟩ := hop.word.1.head_inj hop'.word.1 h
          obtain ⟨-, hends⟩ := ihl inner' hte.1 htf hblank hclose hbody
          exact absurd (List.cons.inj hends).1 (by decide)
      | binary hop' first' second' =>
          obtain ⟨hlexeme, hbody⟩ := hop.word.1.head_inj hop'.word.1 h
          obtain ⟨hleft, hbehind⟩ := ihl first' hte.1 htf.1 hblank hblank hbody
          obtain ⟨hright, hends⟩ := ihr second' hte.2 htf.2 hclose hclose
            (List.cons.inj hbehind).2
          exact ⟨.binary (hop.matches_of_lexeme hop' hlexeme) hleft hright,
            (List.cons.inj hends).2⟩
      | grouping inner' => exact absurd (hop.word.1.head_inj hgroup h).1 hop.word.2
  | grouping inner ih =>
      cases hf with
      | literal w => exact absurd h.symm (Value.word_shown htf).append_ne_paren
      | unary hop' inner' => exact absurd (hgroup.head_inj hop'.word.1 h).1.symm hop'.word.2
      | binary hop' first' second' =>
          exact absurd (hgroup.head_inj hop'.word.1 h).1.symm hop'.word.2
      | grouping inner' =>
          obtain ⟨-, hbody⟩ := hgroup.head_inj hgroup h
          obtain ⟨hsame, hends⟩ := ih inner' hte htf hclose hclose hbody
          exact ⟨.grouping hsame, (List.cons.inj hends).2⟩

/-- An expression that is read from a source, by itself or in a statement. -/
def FromSource (e : Expr) : Prop :=
  ∃ policy source, ofTokens (Scan.ofSource policy source).tokens = .ok e ∨
    ∃ s ∈ (Program.ofTokens (Scan.ofSource policy source).tokens).stmts,
      s = .print e ∨ s = .expression e

theorem signed_of_derives {policy : Unterminated} {source : Bytes} {p : Grammar.Phrase}
    {ts : List Token} {e : Expr} (h : Grammar.Derives p ts e)
    (hts : ∀ t ∈ ts, t ∈ Scan.lexed policy source) : e.Signed := by
  refine h.operable.signed fun op hop hkind => Scan.isSign_of_mem_lexed (hts op ?_) hkind
  have hpieces := h.forall₂_pieces fun t ht => Scan.loaded_of_mem_lexed (hts t ht)
  exact Grammar.mem_of_operator_mem hpieces hop

end Expr

/-! ## Statements -/

namespace Stmt

inductive Resembles : Stmt → Stmt → Prop
  | print {e f : Expr} (h : e.Resembles f) : Resembles (.print e) (.print f)
  | expression {e f : Expr} (h : e.Resembles f) : Resembles (.expression e) (.expression f)

def Textless : Stmt → Prop
  | missing => True
  | print e => e.Textless
  | expression e => e.Textless

inductive Signed : Stmt → Prop
  | print {e : Expr} (h : e.Signed) : Signed (.print e)
  | expression {e : Expr} (h : e.Signed) : Signed (.expression e)

theorem signed_of_mem_stmts {policy : Unterminated} {source : Bytes} {s : Stmt}
    (h : s ∈ (Program.ofTokens (Scan.ofSource policy source).tokens).stmts) : s.Signed := by
  rw [Program.stmts_ofTokens, Scan.body_ofSource] at h
  obtain ⟨a, ha, hparsed⟩ := List.mem_filterMap.mp h
  cases a with
  | failed stuck => cases hparsed
  | parsed s' =>
      cases hparsed
      obtain ⟨used, hused, hstatement⟩ := Attempt.exists_statement_of_parsed_mem ha
      have hlexed := hused.subset
      cases hstatement with
      | print hkeyword value hsemicolon =>
          exact .print (Expr.signed_of_derives value fun t ht => hlexed (by simp [ht]))
      | expression value hsemicolon =>
          exact .expression (Expr.signed_of_derives value fun t ht => hlexed (by simp [ht]))

theorem shown_append (name : Bytes) (e : Expr) (rest : Bytes) :
    parenthesized name [e.shown] ++ rest =
      0x28 :: name ++ space :: e.shownBefore (0x29 :: rest) := by
  simp [parenthesized, Bytes.join, List.intercalate, e.shownBefore_eq]

theorem Resembles.shown_eq {s t : Stmt} (h : s.Resembles t) : s.shown = t.shown := by
  cases h with
  | print h => simp [shown, h.shown_eq]
  | expression h => simp [shown, h.shown_eq]

/-- A statement closes its own parenthesis, so anything may follow it. -/
theorem shown_append_inj {s t : Stmt} (hs : s.Signed) (ht : t.Signed) (hts : s.Textless)
    (htt : t.Textless) {rest more : Bytes} (h : s.shown ++ rest = t.shown ++ more) :
    s.Resembles t ∧ rest = more := by
  have hprint : Word (utf8 "print") := by decide
  have hexpr : Word (utf8 "expr") := by decide
  have hclose {rest : Bytes} : Breaks (0x29 :: rest) := breaks_cons rfl
  cases hs with
  | print he =>
      cases ht with
      | print hf =>
          rw [shown, shown, shown_append, shown_append] at h
          obtain ⟨hsame, hends⟩ := Expr.shownBefore_inj he hf hts htt hclose hclose
            (hprint.head_inj hprint h).2
          exact ⟨.print hsame, (List.cons.inj hends).2⟩
      | expression hf =>
          rw [shown, shown, shown_append, shown_append] at h
          exact absurd (hprint.head_inj hexpr h).1 (by decide)
  | expression he =>
      cases ht with
      | print hf =>
          rw [shown, shown, shown_append, shown_append] at h
          exact absurd (hexpr.head_inj hprint h).1 (by decide)
      | expression hf =>
          rw [shown, shown, shown_append, shown_append] at h
          obtain ⟨hsame, hends⟩ := Expr.shownBefore_inj he hf hts htt hclose hclose
            (hexpr.head_inj hexpr h).2
          exact ⟨.expression hsame, (List.cons.inj hends).2⟩

end Stmt

theorem Expr.FromSource.signed {e : Expr} (h : e.FromSource) : e.Signed := by
  obtain ⟨policy, source, hexpression | ⟨s, hs, hstmt⟩⟩ := h
  · have hderives := derives_of_ofTokens hexpression
    rw [Scan.body_ofSource] at hderives
    exact signed_of_derives hderives fun t ht => ht
  · have hsigned := Stmt.signed_of_mem_stmts hs
    rcases hstmt with rfl | rfl <;> cases hsigned <;> assumption

/-! ## Programs -/

def linesShown (stmts : List Stmt) : Bytes := stmts.flatMap fun s => [newline] ++ s.shown

theorem newline_programShown {stmts : List Stmt} (hne : stmts ≠ []) :
    newline :: programShown stmts = linesShown stmts := by
  cases stmts with
  | nil => exact absurd rfl hne
  | cons s stmts => simp [programShown, linesShown, Bytes.join_cons, List.flatMap_map]

theorem linesShown_inj {stmts others : List Stmt} (hs : ∀ s ∈ stmts, s.Signed)
    (ht : ∀ s ∈ others, s.Signed) (hts : ∀ s ∈ stmts, s.Textless)
    (htt : ∀ s ∈ others, s.Textless) (h : linesShown stmts = linesShown others) :
    List.Forall₂ Stmt.Resembles stmts others := by
  induction stmts generalizing others with
  | nil =>
      cases others with
      | nil => exact .nil
      | cons t others => cases h
  | cons s stmts ih =>
      cases others with
      | nil => cases h
      | cons t others =>
          rw [List.forall_mem_cons] at hs ht hts htt
          have htail : s.shown ++ linesShown stmts = t.shown ++ linesShown others :=
            (List.cons.inj h).2
          obtain ⟨hsame, hrest⟩ := Stmt.shown_append_inj hs.1 ht.1 hts.1 htt.1 htail
          exact .cons hsame (ih hs.2 ht.2 hts.2 htt.2 hrest)

private theorem Stmt.Signed.shown_ne_nil {s : Stmt} (h : s.Signed) : s.shown ≠ [] := by
  cases h <;> exact List.cons_ne_nil _ _

theorem programShown_ne_nil {stmts : List Stmt} (hs : ∀ s ∈ stmts, s.Signed)
    (hne : stmts ≠ []) : programShown stmts ≠ [] := by
  cases stmts with
  | nil => exact absurd rfl hne
  | cons s stmts =>
      have hfirst := (hs s List.mem_cons_self).shown_ne_nil
      simp [programShown, Bytes.join_cons, hfirst]

theorem programShown_inj {stmts others : List Stmt} (hs : ∀ s ∈ stmts, s.Signed)
    (ht : ∀ s ∈ others, s.Signed) (hts : ∀ s ∈ stmts, s.Textless)
    (htt : ∀ s ∈ others, s.Textless) (h : programShown stmts = programShown others) :
    List.Forall₂ Stmt.Resembles stmts others := by
  by_cases hnone : stmts = []
  · subst hnone
    obtain rfl : others = [] := by
      by_contra hne
      exact programShown_ne_nil ht hne h.symm
    exact .nil
  · have hothers : others ≠ [] := by
      rintro rfl
      exact programShown_ne_nil hs hnone h
    refine linesShown_inj hs ht hts htt ?_
    rw [← newline_programShown hnone, ← newline_programShown hothers, h]

private theorem programShown_congr {stmts others : List Stmt}
    (h : List.Forall₂ Stmt.Resembles stmts others) :
    programShown stmts = programShown others := by
  have hshown : stmts.map Stmt.shown = others.map Stmt.shown := by
    induction h with
    | nil => rfl
    | cons hsame hrest ih => rw [List.map_cons, List.map_cons, hsame.shown_eq, ih]
  rw [programShown, programShown, hshown]

/--
What is read from a source and holds no string is told by its printed form, up to
lines and to numbers with the same text; and a program is told by it statement by
statement.
-/
theorem shown_eq_iff :
    (∀ e f : Expr, e.FromSource → f.FromSource → e.Textless → f.Textless →
      (e.shown = f.shown ↔ e.Resembles f)) ∧
    ∀ (policy policy' : Unterminated) (source source' : Bytes) (stmts others : List Stmt),
      (Program.ofTokens (Scan.ofSource policy source).tokens).stmts = stmts →
      (Program.ofTokens (Scan.ofSource policy' source').tokens).stmts = others →
      (∀ s ∈ stmts, s.Textless) → (∀ s ∈ others, s.Textless) →
      (programShown stmts = programShown others ↔
        List.Forall₂ Stmt.Resembles stmts others) := by
  constructor
  · intro e f he hf hte htf
    refine ⟨fun h => ?_, Expr.Resembles.shown_eq⟩
    exact (Expr.shownBefore_inj he.signed hf.signed hte htf breaks_nil breaks_nil h).1
  · rintro policy policy' source source' stmts others rfl rfl hts htt
    refine ⟨fun h => ?_, programShown_congr⟩
    exact programShown_inj (fun s => Stmt.signed_of_mem_stmts)
      (fun s => Stmt.signed_of_mem_stmts) hts htt h

/-- An expression and a program, each on one line and over two lines. -/
theorem shown_eq_iff_over_lines :
    ∃ (e f : Expr) (stmts others : List Stmt),
      Expr.ofTokens (Scan.ofSource .error (utf8 "-(nil) == !true")).tokens = .ok e ∧
      Expr.ofTokens (Scan.ofSource .error (utf8 "- ( nil )\n==! true")).tokens = .ok f ∧
      (Program.ofTokens (Scan.ofSource .error (utf8 "print -nil; true;")).tokens).stmts =
        stmts ∧
      (Program.ofTokens (Scan.ofSource .error (utf8 "print - nil;\ntrue;")).tokens).stmts =
        others ∧
      e.Resembles f ∧ List.Forall₂ Stmt.Resembles stmts others := by
  have hfrom {source : Bytes} {e : Expr}
      (h : Expr.ofTokens (Scan.ofSource .error source).tokens = .ok e) : e.FromSource :=
    ⟨_, _, .inl h⟩
  have hshort : Expr.ofTokens (Scan.ofSource .error (utf8 "-(nil) == !true")).tokens =
      .ok (.binary (.unary ⟨.minus, utf8 "-", 1, .none⟩ (.grouping (.literal .nil)))
        ⟨.equalEqual, utf8 "==", 1, .none⟩
        (.unary ⟨.bang, utf8 "!", 1, .none⟩ (.literal (.boolean true)))) := by cbv
  have hlong : Expr.ofTokens (Scan.ofSource .error (utf8 "- ( nil )\n==! true")).tokens =
      .ok (.binary (.unary ⟨.minus, utf8 "-", 1, .none⟩ (.grouping (.literal .nil)))
        ⟨.equalEqual, utf8 "==", 2, .none⟩
        (.unary ⟨.bang, utf8 "!", 2, .none⟩ (.literal (.boolean true)))) := by cbv
  have hone : (Program.ofTokens (Scan.ofSource .error (utf8 "print -nil; true;")).tokens).stmts =
      [.print (.unary ⟨.minus, utf8 "-", 1, .none⟩ (.literal .nil)),
        .expression (.literal (.boolean true))] := by cbv
  have htwo : (Program.ofTokens (Scan.ofSource .error (utf8 "print - nil;\ntrue;")).tokens).stmts =
      [.print (.unary ⟨.minus, utf8 "-", 1, .none⟩ (.literal .nil)),
        .expression (.literal (.boolean true))] := by cbv
  refine ⟨_, _, _, _, hshort, hlong, hone, htwo, ?_, ?_⟩
  · exact (shown_eq_iff.1 _ _ (hfrom hshort) (hfrom hlong) (by simp [Expr.Textless])
      (by simp [Expr.Textless])).mp (by decide +kernel)
  · exact (shown_eq_iff.2 _ _ _ _ _ _ hone htwo (by simp [Stmt.Textless, Expr.Textless])
      (by simp [Stmt.Textless, Expr.Textless])).mp rfl

end Scriptlet
