import Scriptlet.Proofs.Token.Tokenization
import Scriptlet.Proofs.Tree.Steering

/-!
# Payloads can be read off lexemes

A scanned token whose payload is taken away still spells it: a number reads as
the number it carried, and a string without the quotes at its ends is the text
it carried.  Trees and problems of a source are those of its bare tokens
(`Program.ofTokens_bare`).
-/

namespace Scriptlet

/-! ## Bare tokens -/

private theorem Bytes.trim_quotes {content closing : Bytes} (hcontent : quote ∉ content)
    (hclosing : ∀ b ∈ closing, b = quote) :
    dropEndWhile (· == quote) ((quote :: content ++ closing).dropWhile (· == quote)) =
      content := by
  have hkept : ∀ s : Bytes, quote ∉ s → s.dropWhile (· == quote) = s := by
    intro s hs
    cases s with
    | nil => rfl
    | cons b s =>
        have hb : b ≠ quote := fun heq => hs (by simp [heq])
        simp [hb]
  cases content with
  | nil =>
      have hall : (quote :: [] ++ closing).dropWhile (· == quote) = [] := by
        simpa using hclosing
      rw [hall]
      rfl
  | cons b more =>
      have hb : b ≠ quote := fun heq => hcontent (by simp [heq])
      have hfront : (quote :: (b :: more) ++ closing).dropWhile (· == quote) =
          b :: more ++ closing := by
        simp [hb]
      have hclosing' : ∀ b ∈ closing.reverse, (b == quote) = true := by
        simpa using hclosing
      rw [hfront, dropEndWhile, List.reverse_append,
        List.dropWhile_append_of_pos hclosing', hkept _ (by rwa [List.mem_reverse]),
        List.reverse_reverse]

namespace Token

def bare (t : Token) : Token := { t with payload := .none }

@[simp]
theorem kind_bare (t : Token) : t.bare.kind = t.kind := rfl

theorem bare_eq_self {t : Token} (h : t.payload = .none) : t.bare = t := by
  cases t
  cases h
  rfl

/-- A token whose payload tells nothing that its kind and its lexeme do not. -/
structure Spelled (t : Token) : Prop where
  number : t.kind = .number → t.payload = .number t.bare.numberValue
  text : t.kind = .string → t.payload = .text t.bare.textValue
  plain : t.kind ≠ .number → t.kind ≠ .string → t.payload = .none

private theorem Spelled.numberValue_bare {t : Token} (h : t.Spelled) (hkind : t.kind = .number) :
    t.bare.numberValue = t.numberValue := by
  rw [numberValue.eq_def t, h.number hkind]

private theorem Spelled.textValue_bare {t : Token} (h : t.Spelled) (hkind : t.kind = .string) :
    t.bare.textValue = t.textValue := by
  rw [textValue.eq_def t, h.text hkind]

theorem Valued.spelled {policy : Unterminated} {t : Token} (h : t.Valued policy) :
    t.Spelled := by
  refine ⟨?_, ?_, h.plain⟩
  · intro hkind
    obtain ⟨x, hread, hpayload⟩ := h.number hkind
    simp [hpayload, numberValue, bare, hread]
  · intro hkind
    obtain ⟨content, hcontent, hpayload, hlexeme⟩ := h.string hkind
    have hclosing : ∃ closing, (∀ b ∈ closing, b = quote) ∧
        t.lexeme = quote :: content ++ closing := by
      rcases hlexeme with hclosed | ⟨-, hopen⟩
      · exact ⟨[quote], by simp, hclosed⟩
      · exact ⟨[], by simp, by simpa using hopen⟩
    obtain ⟨closing, hquotes, hwhole⟩ := hclosing
    rw [hpayload, textValue, bare]
    simp only [hwhole, Bytes.trim_quotes hcontent hquotes]

end Token

def Misfit.bare (m : Misfit) : Misfit := ⟨m.token.bare, m.expected⟩

private theorem Misfit.record?_bare (m : Misfit) : m.bare.record? = m.record? := rfl

theorem Misfit.getElem?_bare {toks : List Token} {i : Nat} {m : Misfit}
    (htoken : toks[i]? = some m.token) : (toks.map Token.bare)[i]? = some m.bare.token := by
  simp [htoken, bare]

/-! ## The trees of bare tokens -/

section Bare

variable {toks : List Token} (hspelled : ∀ t ∈ toks, t.Spelled)
include hspelled

theorem Outline.Drawn.bare {outline : Outline} {e : Expr} (h : outline.Drawn toks e) :
    outline.Drawn (toks.map Token.bare) e := by
  have hplace {i : Nat} {t : Token} (ht : toks[i]? = some t) :
      (toks.map Token.bare)[i]? = some t.bare := by
    rw [List.getElem?_map, ht, Option.map_some]
  have hmem {i : Nat} {t : Token} (ht : toks[i]? = some t) : t.Spelled :=
    hspelled t (List.mem_of_getElem? ht)
  -- An operator has no payload, so the tree keeps it as it is.
  have hoperator {i : Nat} {op : Token} (ht : toks[i]? = some op) (hnumber : op.kind ≠ .number)
      (hstring : op.kind ≠ .string) : (toks.map Token.bare)[i]? = some op := by
    rw [hplace ht, Token.bare_eq_self ((hmem ht).plain hnumber hstring)]
  induction h with
  | nil => exact .nil
  | boolean b => exact .boolean b
  | number htoken hkind =>
      rw [← (hmem htoken).numberValue_bare hkind]
      exact .number (hplace htoken) hkind
  | text htoken hkind =>
      rw [← (hmem htoken).textValue_bare hkind]
      exact .text (hplace htoken) hkind
  | unary htoken hkind operand ih =>
      refine .unary (hoperator htoken ?_ ?_) hkind ih
      · intro hnumber
        simp [hnumber, Kind.isUnary] at hkind
      · intro hstring
        simp [hstring, Kind.isUnary] at hkind
  | binary first htoken hkind second ihfirst ihsecond =>
      refine .binary ihfirst (hoperator htoken ?_ ?_) hkind ihsecond
      · intro hnumber
        simp [hnumber, Kind.level?] at hkind
      · intro hstring
        simp [hstring, Kind.level?] at hkind
  | grouping inner ih => exact .grouping ih

theorem Leg.Drawn.bare {leg : Leg} {result : Stmt ⊕ Misfit} (h : leg.Drawn toks result) :
    leg.Drawn (toks.map Token.bare) (result.map id Misfit.bare) := by
  cases h with
  | print tree => exact .print (tree.bare hspelled)
  | expression tree => exact .expression (tree.bare hspelled)
  | @failure i m htoken =>
      have hfailure := Leg.Drawn.failure (Misfit.getElem?_bare htoken)
      exact hfailure

theorem Reply.Drawn.bare {reply : Reply} {answer : Except Misfit Expr}
    (h : reply.Drawn toks answer) :
    reply.Drawn (toks.map Token.bare) (answer.mapError Misfit.bare) := by
  cases h with
  | tree tree => exact .tree (tree.bare hspelled)
  | @misfit i m htoken =>
      have hmisfit := Reply.Drawn.misfit (Misfit.getElem?_bare htoken)
      exact hmisfit

end Bare

namespace Tokens

private theorem closed_map_bare (ts : List Token) :
    closed (ts.map Token.bare) = (closed ts).map Token.bare := by
  cases hlast : ts.getLast? with
  | none => simp [closed, hlast, Token.bare]
  | some last =>
      by_cases hend : last.kind = .eof
      · simp [closed, hlast, hend]
      · simp [closed, hlast, hend, Token.bare]

private theorem spelled_of_mem_closed {ts : List Token} (hspelled : ∀ t ∈ ts, t.Spelled) :
    ∀ t ∈ closed ts, t.Spelled := by
  have hend (line : Int) : Token.Spelled ⟨.eof, [], line, .none⟩ :=
    ⟨Kind.noConfusion, Kind.noConfusion, fun _ _ => rfl⟩
  intro t ht
  unfold closed at ht
  split at ht
  · rename_i last _
    split at ht
    · exact hspelled t ht
    · rcases List.mem_append.mp ht with hmem | hmem
      · exact hspelled t hmem
      · obtain rfl := List.mem_singleton.mp hmem
        exact hend last.line
  · obtain rfl := List.mem_singleton.mp ht
    exact hend 1

end Tokens

namespace Program

section Bare

variable {ts : List Token} (hspelled : ∀ t ∈ ts, t.Spelled)
include hspelled

theorem results_map_bare :
    results (ts.map Token.bare) = (results ts).map (Sum.map id Misfit.bare) ∧
      Expr.ofTokens (ts.map Token.bare) = (Expr.ofTokens ts).mapError Misfit.bare := by
  obtain ⟨legs, reply, hplan⟩ := exists_legs (ts.map Token.kind)
  have hclosed := Tokens.spelled_of_mem_closed hspelled
  have hkinds : (ts.map Token.bare).map Token.kind = ts.map Token.kind := by
    simp [Function.comp_def]
  obtain ⟨hlegs, hreply⟩ := hplan ts rfl
  obtain ⟨hlegs', hreply'⟩ := hplan (ts.map Token.bare) hkinds
  rw [Tokens.closed_map_bare] at hlegs' hreply'
  have hmapped : List.Forall₂ (Leg.Drawn ((Tokens.closed ts).map Token.bare)) legs
      ((results ts).map (Sum.map id Misfit.bare)) := by
    rw [List.forall₂_map_right_iff]
    exact hlegs.imp fun leg result hleg => hleg.bare hclosed
  have hunique : Relator.RightUnique (Leg.Drawn ((Tokens.closed ts).map Token.bare)) :=
    fun leg result result' => Leg.Drawn.unique
  exact ⟨hunique.forall₂ hlegs' hmapped, hreply'.unique (hreply.bare hclosed)⟩

private theorem stmts_map_bare : (ofTokens (ts.map Token.bare)).stmts = (ofTokens ts).stmts := by
  rw [stmts_eq, stmts_eq, (results_map_bare hspelled).1, List.filterMap_map]
  congr 1
  funext result
  cases result <;> rfl

theorem misfits_map_bare :
    (ofTokens (ts.map Token.bare)).misfits = (ofTokens ts).misfits.map Misfit.bare := by
  rw [misfits_eq, misfits_eq, (results_map_bare hspelled).1, List.filterMap_map,
    List.map_filterMap]
  congr 1
  funext result
  cases result <;> rfl

private theorem records_map_bare :
    (ofTokens (ts.map Token.bare)).records = (ofTokens ts).records := by
  rw [records, records, misfits_map_bare hspelled, List.filterMap_map]
  exact List.filterMap_congr fun m _ => m.record?_bare

end Bare

end Program

namespace Scan

private theorem spelled_of_mem_tokens {policy : Unterminated} {source : Bytes} {t : Token}
    (h : t ∈ (ofSource policy source).tokens) : t.Spelled := by
  rw [tokens_ofSource, List.mem_append, List.mem_singleton] at h
  rcases h with hlexed | rfl
  · exact (valued_of_mem_lexed hlexed).1.spelled
  · exact ⟨Kind.noConfusion, Kind.noConfusion, fun _ _ => rfl⟩

end Scan

/--
Without their payloads the tokens of a source read as the same statements with the
same records, and as the same expression: numbers and texts are recovered from the
lexemes as they were scanned, under either policy.
-/
theorem Program.ofTokens_bare (policy : Unterminated) (source : Bytes) :
    let tokens := (Scan.ofSource policy source).tokens
    (∀ t ∈ tokens,
      (t.kind = .number → t.payload = .number t.bare.numberValue) ∧
      (t.kind = .string → t.payload = .text t.bare.textValue) ∧
      (t.kind ≠ .number → t.kind ≠ .string → t.bare = t)) ∧
    (ofTokens (tokens.map Token.bare)).stmts = (ofTokens tokens).stmts ∧
    (ofTokens (tokens.map Token.bare)).misfits = (ofTokens tokens).misfits.map Misfit.bare ∧
    (ofTokens (tokens.map Token.bare)).records = (ofTokens tokens).records ∧
    Expr.ofTokens (tokens.map Token.bare) = (Expr.ofTokens tokens).mapError Misfit.bare := by
  intro tokens
  have hspelled : ∀ t ∈ tokens, t.Spelled := fun t ht => Scan.spelled_of_mem_tokens ht
  refine ⟨?_, stmts_map_bare hspelled, misfits_map_bare hspelled, records_map_bare hspelled,
    (results_map_bare hspelled).2⟩
  intro t ht
  have hown := hspelled t ht
  exact ⟨hown.number, hown.text, fun hnumber hstring =>
    Token.bare_eq_self (hown.plain hnumber hstring)⟩

end Scriptlet
