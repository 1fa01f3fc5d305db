import Scriptlet.Proofs.Tree.Operable

/-!
# Explicit parentheses

A tree can be written with parentheses around every operation (`Enclosed`).
What is written so is read as the same tree but for its groups, whatever the
precedence of its operators (`Enclosed.derives_primary`), and groups have no
part in evaluation (`eval_ungrouped`).
-/

namespace Scriptlet

/-! ## Groups -/

namespace Expr

def ungrouped : Expr → Expr
  | missing => missing
  | literal value => literal value
  | unary op operand => unary op operand.ungrouped
  | binary left op right => binary left.ungrouped op right.ungrouped
  | grouping inner => inner.ungrouped

end Expr

def RuntimeError.ungrouped (e : RuntimeError) : RuntimeError :=
  { e with node := e.node.ungrouped }

def Halt.ungrouped : Halt → Halt
  | failed error => failed error.ungrouped
  | absent what => absent what

namespace Expr

theorem eval_ungrouped (e : Expr) : e.ungrouped.eval = e.eval.mapError Halt.ungrouped := by
  induction e with
  | missing => rfl
  | literal value => rfl
  | grouping inner ih => exact ih
  | unary op operand ih =>
      rw [ungrouped, eval, eval, ih]
      cases operand.eval with
      | error halt => rfl
      | ok v =>
          simp only [Except.mapError]
          cases Operator.unary op.kind v <;> rfl
  | binary left op right ihl ihr =>
      rw [ungrouped, eval, eval, ihl, ihr]
      cases left.eval with
      | error halt => rfl
      | ok v =>
          cases right.eval with
          | error halt => rfl
          | ok w =>
              simp only [Except.mapError]
              cases Operator.binary op.kind v w <;> rfl

/-! ## Writing parentheses -/

/--
The tokens write the tree with parentheses around every operation.  Its
operators stand for themselves; the groups of the tree are kept or left out.
-/
inductive Enclosed : Expr → List Token → Prop
  | literal {t : Token} {value : Value} (ht : t.literal? = some value) :
      Enclosed (.literal value) [t]
  | unary {left right op : Token} {operand : Expr} {ts : List Token}
      (hleft : left.kind = .leftParen) (inner : Enclosed operand ts)
      (hright : right.kind = .rightParen) :
      Enclosed (.unary op operand) (left :: (op :: ts) ++ [right])
  | binary {left right op : Token} {first second : Expr} {ts us : List Token}
      (hleft : left.kind = .leftParen) (hfirst : Enclosed first ts)
      (hsecond : Enclosed second us) (hright : right.kind = .rightParen) :
      Enclosed (.binary first op second) (left :: (ts ++ op :: us) ++ [right])
  | kept {left right : Token} {e : Expr} {ts : List Token}
      (hleft : left.kind = .leftParen) (inner : Enclosed e ts)
      (hright : right.kind = .rightParen) :
      Enclosed (.grouping e) (left :: ts ++ [right])
  | dropped {e : Expr} {ts : List Token} (inner : Enclosed e ts) :
      Enclosed (.grouping e) ts

end Expr

private theorem Value.exists_literal (value : Value) : ∃ t : Token, t.literal? = some value := by
  cases value with
  | nil => exact ⟨.ofKind .kwNil, rfl⟩
  | boolean b =>
      cases b with
      | false => exact ⟨.ofKind .kwFalse, rfl⟩
      | true => exact ⟨.ofKind .kwTrue, rfl⟩
  | number x => exact ⟨⟨.number, [], 1, .number x⟩, rfl⟩
  | text s => exact ⟨⟨.string, [], 1, .text s⟩, rfl⟩

namespace Expr

open Grammar

theorem Operable.exists_enclosed {e : Expr} (h : e.Operable) : ∃ ts, e.Enclosed ts := by
  have hleft : (Token.ofKind .leftParen).kind = .leftParen := rfl
  have hright : (Token.ofKind .rightParen).kind = .rightParen := rfl
  induction h with
  | literal value =>
      obtain ⟨t, ht⟩ := value.exists_literal
      exact ⟨_, .literal ht⟩
  | unary hop inner ih =>
      obtain ⟨ts, hts⟩ := ih
      exact ⟨_, .unary hleft hts hright⟩
  | binary hop first second ihl ihr =>
      obtain ⟨ts, hts⟩ := ihl
      obtain ⟨us, hus⟩ := ihr
      exact ⟨_, .binary hleft hts hus hright⟩
  | grouping h ih =>
      obtain ⟨ts, hts⟩ := ih
      exact ⟨ts, .dropped hts⟩

end Expr

/-! ## Reading parentheses -/

namespace Grammar

private theorem Tier.exists_of_mem_binaryKinds {k : Kind} (h : k ∈ Operator.binaryKinds) :
    ∃ tier : Tier, k ∈ tier.operators := by
  have hall : ∀ k ∈ Operator.binaryKinds, k.level?.isSome = true := by decide
  obtain ⟨n, hlevel⟩ := Option.isSome_iff_exists.mp (hall k h)
  obtain ⟨tier, hop, -⟩ := Tier.exists_of_level? hlevel
  exact ⟨tier, hop⟩

theorem Derives.kind_ne_eof {p : Phrase} {ts : List Token} {e : Expr}
    (h : Derives p ts e) : ∀ t ∈ ts, t.kind ≠ .eof := by
  induction h with
  | @chain tier ts e links first ops operands ihfirst ihoperands =>
      have hoperators : ∀ k ∈ tier.operators, k ≠ .eof := by
        cases tier <;> decide
      rw [List.forall_mem_append]
      refine ⟨ihfirst, ?_⟩
      intro t ht
      obtain ⟨link, hlink, hmem⟩ := List.mem_flatMap.mp ht
      rcases List.mem_cons.mp hmem with rfl | hoperand
      · exact hoperators _ (ops link hlink)
      · exact ihoperands link hlink t hoperand
  | @sign op ts e hop operand ih =>
      have hoperators : ∀ k ∈ [Kind.bang, Kind.minus], k ≠ .eof := by decide
      exact List.forall_mem_cons.mpr ⟨hoperators _ hop, ih⟩
  | bare primary ih => exact ih
  | number ht => simp [ht]
  | string ht => simp [ht]
  | true ht => simp [ht]
  | false ht => simp [ht]
  | nil ht => simp [ht]
  | group hleft inner hright ih =>
      rw [List.cons_append, List.forall_mem_cons, List.forall_mem_append,
        List.forall_mem_singleton]
      refine ⟨?_, ih, ?_⟩
      · rw [hleft]
        exact Kind.noConfusion
      · rw [hright]
        exact Kind.noConfusion

end Grammar

namespace Expr

open Grammar

/-- The parentheses fix the tree: each operation is a phrase of its own. -/
theorem Enclosed.derives_primary {e : Expr} {ts : List Token} (h : e.Enclosed ts)
    (hoperable : e.Operable) : ∃ f, Derives .primary ts f ∧ f.ungrouped = e.ungrouped := by
  induction h with
  | literal ht => exact ⟨_, Precedence.derives_of_literal? ht, rfl⟩
  | @unary left right op operand ts hleft inner hright ih =>
      cases hoperable with
      | unary hop hoperand =>
          obtain ⟨f, hf, hsame⟩ := ih hoperand
          have hsign : Derives .unary (op :: ts) (.unary op f) := .sign hop (.bare hf)
          refine ⟨_, .group hleft (hsign.weaken ?_) hright, ?_⟩
          · simp [Tier.rank, Phrase.rank]
          · rw [ungrouped, ungrouped, ungrouped, hsame]
  | @binary left right op first second ts us hleft hfirst hsecond hright ihl ihr =>
      cases hoperable with
      | binary hop hl hr =>
          obtain ⟨f, hf, hfsame⟩ := ihl hl
          obtain ⟨g, hg, hgsame⟩ := ihr hr
          obtain ⟨tier, htier⟩ := Tier.exists_of_mem_binaryKinds hop
          have hrank := tier.rank_le
          have hchain : Derives (.tier tier) (ts ++ op :: us) (.binary f op g) := by
            refine Derives.extend (hf.weaken ?_) htier (hg.weaken ?_)
            · simp only [Phrase.rank]
              omega
            · rw [Tier.rank_operand, Phrase.rank]
              omega
          refine ⟨_, .group hleft (hchain.weaken (Phrase.tier tier).one_le_rank) hright, ?_⟩
          rw [ungrouped, ungrouped, ungrouped, hfsame, hgsame]
  | kept hleft inner hright ih =>
      cases hoperable with
      | grouping hinner =>
          obtain ⟨f, hf, hsame⟩ := ih hinner
          refine ⟨_, .group hleft (hf.weaken ?_) hright, hsame⟩
          simp [Tier.rank, Phrase.rank]
  | dropped inner ih =>
      cases hoperable with
      | grouping hinner => exact ih hinner

theorem derives_of_ofTokens {ts : List Token} {e : Expr} (h : ofTokens ts = .ok e) :
    Derives .expression (Tokens.ofList ts).body e := by
  simp only [ofTokens] at h
  split at h
  · cases h
  · rename_i hread
    cases h
    obtain ⟨used, hused, hderives, -⟩ := read_eq_ok_iff.mp hread
    rwa [hused, List.append_nil]
  · cases h

private theorem ofTokens_of_derives {ts after : List Token} {e : Expr}
    (h : Derives .expression ts e) (hafter : ∀ t ∈ after.head?, t.kind = .eof) :
    ofTokens (ts ++ after) = .ok e := by
  have hnothing : (Tokens.ofList after).body = [] := by
    rw [Tokens.body_ofList]
    cases after with
    | nil => rfl
    | cons t after => simp [hafter t rfl]
  have hbody : (Tokens.ofList (ts ++ after)).body = ts := by
    rw [Tokens.body_ofList_append h.kind_ne_eof, hnothing, List.append_nil]
  have hread : read ts = .ok (e, []) :=
    read_eq_ok_iff.mpr ⟨ts, (List.append_nil ts).symm, h, rfl⟩
  simp only [ofTokens, hbody, hread]

theorem eval_of_ungrouped_eq {e f : Expr} (h : f.ungrouped = e.ungrouped)
    (hoperable : e.Operable) :
    (∃ v, e.eval = .ok v ∧ f.eval = .ok v) ∨
      ∃ error error' : RuntimeError, e.eval = .error (.failed error) ∧
        f.eval = .error (.failed error') ∧ error'.ungrouped = error.ungrouped := by
  have hsame := congrArg eval h
  rw [eval_ungrouped, eval_ungrouped] at hsame
  have hsettled := hoperable.settled
  cases he : e.eval with
  | ok v =>
      rw [he] at hsame
      cases hf : f.eval with
      | ok w =>
          rw [hf] at hsame
          cases hsame
          exact .inl ⟨v, rfl, rfl⟩
      | error halt =>
          rw [hf] at hsame
          cases hsame
  | error halt =>
      rw [he] at hsame hsettled
      cases halt with
      | absent what => exact hsettled.elim
      | failed error =>
          cases hf : f.eval with
          | ok w =>
              rw [hf] at hsame
              cases hsame
          | error halt' =>
              rw [hf] at hsame
              cases halt' with
              | absent what => cases hsame
              | failed error' =>
                  simp only [Except.mapError, Halt.ungrouped, Except.error.injEq,
                    Halt.failed.injEq] at hsame
                  exact .inr ⟨error, error', rfl, rfl, hsame⟩

/--
An expression that is accepted can be written with parentheses around every
operation.  However that is done, the result is accepted too, its tree is the
same but for groups, and both trees have the same value or fail at the same
operator for the same reason.
-/
theorem ofTokens_enclosed {ts : List Token} {e : Expr} (h : ofTokens ts = .ok e) :
    (∃ us, e.Enclosed us) ∧
      ∀ us, e.Enclosed us →
        ∃ f, (∀ after : List Token, (∀ t ∈ after.head?, t.kind = .eof) →
            ofTokens (us ++ after) = .ok f) ∧
          f.ungrouped = e.ungrouped ∧
          ((∃ v, e.eval = .ok v ∧ f.eval = .ok v) ∨
            ∃ error error' : RuntimeError, e.eval = .error (.failed error) ∧
              f.eval = .error (.failed error') ∧ error'.op = error.op ∧
              error'.reason.message = error.reason.message) := by
  have hoperable := (derives_of_ofTokens h).operable
  refine ⟨hoperable.exists_enclosed, ?_⟩
  intro us hus
  obtain ⟨f, hf, hsame⟩ := hus.derives_primary hoperable
  have hexpression : Derives .expression us f :=
    hf.weaken (by simp [Tier.rank, Phrase.rank])
  refine ⟨f, fun after hafter => ofTokens_of_derives hexpression hafter, hsame, ?_⟩
  rcases eval_of_ungrouped_eq hsame hoperable with hvalue | ⟨error, error', he, hf', heq⟩
  · exact .inl hvalue
  · simp only [RuntimeError.ungrouped, RuntimeError.mk.injEq] at heq
    exact .inr ⟨error, error', he, hf', heq.2.1, by rw [heq.2.2]⟩

/-- `nil - true * -false` and `(nil - (true * (-false)))` fail at the same sign. -/
theorem ofTokens_enclosed_sign :
    ∃ (e f : Expr) (error error' : RuntimeError),
      ofTokens ([Kind.kwNil, .minus, .kwTrue, .star, .minus, .kwFalse, .eof].map
        Token.ofKind) = .ok e ∧
      ofTokens ([Kind.leftParen, .kwNil, .minus, .leftParen, .kwTrue, .star, .leftParen,
        .minus, .kwFalse, .rightParen, .rightParen, .rightParen, .eof].map Token.ofKind) =
          .ok f ∧
      e.eval = .error (.failed error) ∧ f.eval = .error (.failed error') ∧
      error'.op = error.op ∧ error'.reason.message = "Operand must be a number." := by
  have hleft : (Token.ofKind .leftParen).kind = .leftParen := rfl
  have hright : (Token.ofKind .rightParen).kind = .rightParen := rfl
  have hend : ∀ t ∈ [Token.ofKind .eof].head?, t.kind = .eof := by simp [Token.ofKind]
  have hnil : Enclosed (.literal .nil) [.ofKind .kwNil] := .literal rfl
  have htrue : Enclosed (.literal (.boolean true)) [.ofKind .kwTrue] := .literal rfl
  have hfalse : Enclosed (.literal (.boolean false)) [.ofKind .kwFalse] := .literal rfl
  have hsign : Enclosed (.unary (.ofKind .minus) _) _ := .unary hleft hfalse hright
  have hproduct : Enclosed (.binary _ (.ofKind .star) _) _ :=
    .binary hleft htrue hsign hright
  have hwhole : Enclosed (.binary _ (.ofKind .minus) _) _ :=
    .binary hleft hnil hproduct hright
  have haccepted : ofTokens ([Kind.kwNil, .minus, .kwTrue, .star, .minus, .kwFalse,
      .eof].map Token.ofKind) = .ok (.binary (.literal .nil) (.ofKind .minus)
        (.binary (.literal (.boolean true)) (.ofKind .star)
          (.unary (.ofKind .minus) (.literal (.boolean false))))) := rfl
  obtain ⟨f, hf, -, ⟨v, hv, -⟩ | ⟨error, error', he, hfailed, hop, hmessage⟩⟩ :=
    (ofTokens_enclosed haccepted).2 _ hwhole
  · cases hv
  · refine ⟨_, f, error, error', haccepted, hf _ hend, he, hfailed, hop,
      hmessage.trans ?_⟩
    cases he
    rfl

end Expr

end Scriptlet
