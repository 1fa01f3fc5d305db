import Mathlib.Data.List.Forall2
import Scriptlet.Proofs.Tree.Grammar

/-!
# Flattening trees

A tree lists the pieces of its source in order.  A derivation builds a tree
whose pieces are its tokens, one for one (`Grammar.Derives.forall₂_pieces`).
-/

namespace Scriptlet

/-- What a tree knows of one token of its source. -/
inductive Piece where
  | mark (kind : Kind)
  | operator (op : Token)
  | literal (value : Value)

namespace Expr

def pieces : Expr → List Piece
  | missing => []
  | literal value => [.literal value]
  | unary op operand => .operator op :: operand.pieces
  | binary left op right => left.pieces ++ .operator op :: right.pieces
  | grouping inner => .mark .leftParen :: inner.pieces ++ [.mark .rightParen]

end Expr

namespace Stmt

def pieces : Stmt → List Piece
  | missing => []
  | print e => .mark .kwPrint :: e.pieces ++ [.mark .semicolon]
  | expression e => e.pieces ++ [.mark .semicolon]

end Stmt

namespace Token

/-- Whether a piece stands for the token: its kind, itself, or its value. -/
def Shows (t : Token) : Piece → Prop
  | .mark kind => t.kind = kind
  | .operator op => t = op
  | .literal .nil => t.kind = .kwNil
  | .literal (.boolean true) => t.kind = .kwTrue
  | .literal (.boolean false) => t.kind = .kwFalse
  | .literal (.number x) => t.kind = .number ∧ t.payload = .number x
  | .literal (.text s) => t.kind = .string ∧ t.payload = .text s

structure Loaded (t : Token) : Prop where
  number : t.kind = .number → ∃ x, t.payload = .number x
  string : t.kind = .string → ∃ s, t.payload = .text s

private theorem Loaded.payload_number {t : Token} (h : t.Loaded) (hkind : t.kind = .number) :
    t.payload = .number t.numberValue := by
  obtain ⟨x, hx⟩ := h.number hkind
  simp [numberValue, hx]

private theorem Loaded.payload_text {t : Token} (h : t.Loaded) (hkind : t.kind = .string) :
    t.payload = .text t.textValue := by
  obtain ⟨s, hs⟩ := h.string hkind
  simp [textValue, hs]

end Token

namespace Grammar

private theorem pieces_foldl_onto (e : Expr) (links : List Link) :
    (links.foldl Link.onto e).pieces =
      e.pieces ++ links.flatMap fun link => .operator link.op :: link.operand.pieces := by
  induction links generalizing e with
  | nil => simp
  | cons link links ih =>
      rw [List.foldl_cons, ih, List.flatMap_cons, Link.onto, Expr.pieces,
        List.append_assoc]

theorem Derives.forall₂_pieces {p : Phrase} {ts : List Token} {e : Expr}
    (h : Derives p ts e) (hts : ∀ t ∈ ts, t.Loaded) :
    List.Forall₂ Token.Shows ts e.pieces := by
  induction h with
  | chain links first ops operands ihfirst ihoperands =>
      rw [pieces_foldl_onto]
      refine List.rel_append (ihfirst fun t ht => hts t (List.mem_append_left _ ht)) ?_
      rw [List.flatMap_def, List.flatMap_def]
      apply List.rel_flatten
      rw [List.forall₂_map_left_iff, List.forall₂_map_right_iff, List.forall₂_same]
      intro link hlink
      refine .cons rfl (ihoperands link hlink ?_)
      intro t ht
      apply hts t
      refine List.mem_append_right _ (List.mem_flatMap.mpr ⟨link, hlink, ?_⟩)
      exact List.mem_cons_of_mem _ ht
  | sign hop operand ih =>
      exact .cons rfl (ih fun t ht => hts t (List.mem_cons_of_mem _ ht))
  | bare primary ih => exact ih hts
  | @number t ht => exact .cons ⟨ht, (hts t (by simp)).payload_number ht⟩ .nil
  | @string t ht => exact .cons ⟨ht, (hts t (by simp)).payload_text ht⟩ .nil
  | true ht => exact .cons ht .nil
  | false ht => exact .cons ht .nil
  | nil ht => exact .cons ht .nil
  | group hleft inner hright ih =>
      refine .cons hleft (List.rel_append (ih ?_) (.cons hright .nil))
      intro t ht
      exact hts t (by simp [ht])

theorem Statement.forall₂_pieces {ts : List Token} {s : Stmt} (h : Statement ts s)
    (hts : ∀ t ∈ ts, t.Loaded) : List.Forall₂ Token.Shows ts s.pieces := by
  cases h with
  | print hkeyword value hsemicolon =>
      refine .cons hkeyword
        (List.rel_append (value.forall₂_pieces ?_) (.cons hsemicolon .nil))
      intro t ht
      exact hts t (by simp [ht])
  | expression value hsemicolon =>
      refine List.rel_append (value.forall₂_pieces ?_) (.cons hsemicolon .nil)
      intro t ht
      exact hts t (by simp [ht])

theorem Statements.forall₂_pieces {ts : List Token} {stmts : List Stmt}
    (h : Statements ts stmts) (hts : ∀ t ∈ ts, t.Loaded) :
    List.Forall₂ Token.Shows ts (stmts.flatMap Stmt.pieces) := by
  induction h with
  | nil => exact .nil
  | cons first rest ih =>
      rw [List.flatMap_cons]
      refine List.rel_append (first.forall₂_pieces ?_) (ih ?_)
      · exact fun t ht => hts t (List.mem_append_left _ ht)
      · exact fun t ht => hts t (List.mem_append_right _ ht)

theorem mem_of_operator_mem {ts : List Token} {pieces : List Piece} {op : Token}
    (h : List.Forall₂ Token.Shows ts pieces) (hop : .operator op ∈ pieces) : op ∈ ts := by
  induction h with
  | nil => cases hop
  | cons hshows hrest ih =>
      rcases List.mem_cons.mp hop with rfl | hlater
      · rw [show _ = op from hshows]
        exact List.mem_cons_self
      · exact List.mem_cons_of_mem _ (ih hlater)

end Grammar

end Scriptlet
