import Scriptlet.Tree.Basic
import Scriptlet.Decimal.Reader

/-!
# Reading expressions

Expressions are read in one pass by a machine with a stack.  A frame of the
stack is an operator that waits for its right operand, or a parenthesis that
waits to be closed.  Where an operand is due the machine takes a literal, a
unary operator or an opening parenthesis; behind an operand it takes a binary
operator or a closing parenthesis.  A binary operator first completes all
waiting operators that bind at least as tightly, so equal levels group to the
left; unary operators bind tightest.  The machine stops at the first token
that it cannot take, and blames that token unless the expression is complete.
-/

namespace Scriptlet

def Kind.level? : Kind → Option Nat
  | .bangEqual | .equalEqual => some 1
  | .greater | .greaterEqual | .less | .lessEqual => some 2
  | .minus | .plus => some 3
  | .slash | .star => some 4
  | _ => none

def Kind.isUnary : Kind → Bool
  | .bang | .minus => true
  | _ => false

namespace Token

/-- The payload of a number, or else what its lexeme reads as. -/
def numberValue (t : Token) : Float :=
  match t.payload with
  | .number value => value
  | _ => (Decimal.read? t.lexeme).getD 0

/-- The payload of a string, or else its lexeme without quotes at the ends. -/
def textValue (t : Token) : Bytes :=
  match t.payload with
  | .text value => value
  | _ => Bytes.dropEndWhile (· == quote) (t.lexeme.dropWhile (· == quote))

def literal? (t : Token) : Option Value :=
  match t.kind with
  | .kwFalse => some (.boolean false)
  | .kwTrue => some (.boolean true)
  | .kwNil => some .nil
  | .number => some (.number t.numberValue)
  | .string => some (.text t.textValue)
  | _ => none

end Token

inductive Expected where
  | expression
  | closeParen
  | semicolonAfterValue
  | semicolonAfterExpression
  | endOfExpression
  deriving DecidableEq, Repr

def Expected.message : Expected → String
  | expression => "Expect expression."
  | closeParen => "Expect ')' after expression."
  | semicolonAfterValue => "Expect ';' after value."
  | semicolonAfterExpression => "Expect ';' after expression."
  | endOfExpression => "Expect end of expression."

/-- Reading failed in front of `rest`, whose first token is to blame. -/
structure Stuck where
  expected : Expected
  rest : List Token

namespace Precedence

inductive Frame where
  | unary (op : Token)
  | binary (left : Expr) (op : Token)
  | paren

/-- Completes the waiting operators that bind at least as tightly as `level`. -/
def reduce (level : Nat) (e : Expr) : List Frame → Expr × List Frame
  | .unary op :: stack => reduce level (.unary op e) stack
  | .binary left op :: stack =>
    if level ≤ (op.kind.level?).getD 0 then reduce level (.binary left op e) stack
    else (e, .binary left op :: stack)
  | .paren :: stack => (e, .paren :: stack)
  | [] => (e, [])

inductive State where
  | due
  | ready (operand : Expr)

def finish (e : Expr) (stack : List Frame) (rest : List Token) :
    Except Stuck (Expr × List Token) :=
  match reduce 0 e stack with
  | (e, []) => .ok (e, rest)
  | (_, _ :: _) => .error ⟨.closeParen, rest⟩

def run : State → List Frame → List Token → Except Stuck (Expr × List Token)
  | .due, _, [] => .error ⟨.expression, []⟩
  | .due, stack, t :: rest =>
    match t.literal? with
    | some value => run (.ready (.literal value)) stack rest
    | none =>
      if t.kind.isUnary then run .due (.unary t :: stack) rest
      else if t.kind = .leftParen then run .due (.paren :: stack) rest
      else .error ⟨.expression, t :: rest⟩
  | .ready e, stack, [] => finish e stack []
  | .ready e, stack, t :: rest =>
    match t.kind.level? with
    | some level =>
      let (left, stack) := reduce level e stack
      run .due (.binary left t :: stack) rest
    | none =>
      if t.kind = .rightParen then
        match reduce 0 e stack with
        | (inner, .paren :: stack) => run (.ready (.grouping inner)) stack rest
        | (e, stack) => finish e stack (t :: rest)
      else finish e stack (t :: rest)

/-! ## Progress -/

def remainder : Except Stuck (Expr × List Token) → List Token
  | .ok (_, rest) => rest
  | .error stuck => stuck.rest

theorem remainder_finish (e : Expr) (stack : List Frame) (rest : List Token) :
    remainder (finish e stack rest) = rest := by
  unfold finish
  split <;> rfl

/-- The machine takes tokens off the front and changes no others. -/
theorem remainder_run (state : State) (stack : List Frame) (ts : List Token) :
    remainder (run state stack ts) <:+ ts := by
  fun_induction run state stack ts <;>
    first
    | exact List.suffix_refl _
    | simp only [remainder_finish, List.suffix_refl]
    | (rename_i ih; exact ih.trans (List.suffix_cons _ _))

end Precedence

namespace Expr

def read (ts : List Token) : Except Stuck (Expr × List Token) :=
  Precedence.run .due [] ts

theorem length_remainder_read (ts : List Token) :
    (Precedence.remainder (read ts)).length ≤ ts.length :=
  (Precedence.remainder_run .due [] ts).length_le

end Expr

end Scriptlet
