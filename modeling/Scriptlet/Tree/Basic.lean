import Scriptlet.Token.Basic
import Scriptlet.Tree.Value

/-!
# Expressions and statements

Trees carry the tokens of their operators.  A tree that was built by hand may
lack a node; reading a source never builds such a tree.
-/

namespace Scriptlet

inductive Expr where
  | missing
  | literal (value : Value)
  | unary (op : Token) (operand : Expr)
  | binary (left : Expr) (op : Token) (right : Expr)
  | grouping (inner : Expr)
  deriving Inhabited

inductive Stmt where
  | missing
  | print (expr : Expr)
  | expression (expr : Expr)
  deriving Inhabited

inductive Absence where
  | expression
  | statement
  deriving DecidableEq, Repr

namespace Absence

def message : Absence → String
  | expression => "unhandled expression <nil>"
  | statement => "unhandled statement <nil>"

end Absence

/-! ## Printed form -/

def parenthesized (name : Bytes) (children : List Bytes) : Bytes :=
  0x28 :: Bytes.join [space] (name :: children) ++ [0x29]

namespace Expr

def shownBefore : Expr → (rest : Bytes) → Bytes
  | missing, rest => rest
  | literal value, rest => value.shown ++ rest
  | unary op operand, rest =>
    0x28 :: op.lexeme ++ space :: operand.shownBefore (0x29 :: rest)
  | binary left op right, rest =>
    0x28 :: op.lexeme ++ space :: left.shownBefore (space :: right.shownBefore (0x29 :: rest))
  | grouping inner, rest =>
    0x28 :: utf8 "group" ++ space :: inner.shownBefore (0x29 :: rest)

def shown (e : Expr) : Bytes := e.shownBefore []

theorem shownBefore_eq (e : Expr) (rest : Bytes) : e.shownBefore rest = e.shown ++ rest := by
  unfold shown
  induction e generalizing rest with
  | missing => rfl
  | literal value => simp [shownBefore]
  | unary op operand ih =>
    simp only [shownBefore]
    rw [ih (0x29 :: rest), ih [0x29]]
    simp
  | binary left op right ihl ihr =>
    simp only [shownBefore]
    rw [ihl (space :: right.shownBefore (0x29 :: rest)), ihr (0x29 :: rest),
      ihl (space :: right.shownBefore [0x29]), ihr [0x29]]
    simp
  | grouping inner ih =>
    simp only [shownBefore]
    rw [ih (0x29 :: rest), ih [0x29]]
    simp

@[simp]
theorem shown_missing : missing.shown = [] := rfl

@[simp]
theorem shown_literal (value : Value) : (literal value).shown = value.shown := by
  simp [shown, shownBefore]

@[simp]
theorem shown_unary (op : Token) (operand : Expr) :
    (unary op operand).shown = parenthesized op.lexeme [operand.shown] := by
  change (unary op operand).shownBefore [] = _
  rw [shownBefore, shownBefore_eq operand]
  simp [parenthesized, Bytes.join, List.intercalate]

@[simp]
theorem shown_binary (left : Expr) (op : Token) (right : Expr) :
    (binary left op right).shown = parenthesized op.lexeme [left.shown, right.shown] := by
  change (binary left op right).shownBefore [] = _
  rw [shownBefore, shownBefore_eq left, shownBefore_eq right]
  simp [parenthesized, Bytes.join, List.intercalate]

@[simp]
theorem shown_grouping (inner : Expr) :
    (grouping inner).shown = parenthesized (utf8 "group") [inner.shown] := by
  change (grouping inner).shownBefore [] = _
  rw [shownBefore, shownBefore_eq inner]
  simp [parenthesized, Bytes.join, List.intercalate]

def complete : Expr → Bool
  | missing => false
  | literal _ => true
  | unary _ operand => operand.complete
  | binary left _ right => left.complete && right.complete
  | grouping inner => inner.complete

end Expr

namespace Stmt

def shown : Stmt → Bytes
  | missing => []
  | print expr => parenthesized (utf8 "print") [expr.shown]
  | expression expr => parenthesized (utf8 "expr") [expr.shown]

def absence? : Stmt → Option Absence
  | missing => some .statement
  | print expr | expression expr => if expr.complete then none else some .expression

def complete (s : Stmt) : Bool := s.absence?.isNone

end Stmt

def programShown (stmts : List Stmt) : Bytes :=
  Bytes.join [newline] (stmts.map Stmt.shown)

end Scriptlet
