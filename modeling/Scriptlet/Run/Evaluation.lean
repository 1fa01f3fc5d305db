import Scriptlet.Tree.Precedence
import Scriptlet.Diagnostics.Record
import Scriptlet.Fault.Basic
import Scriptlet.Run.Console

/-!
# Evaluation

Expressions are reduced to values, operands from left to right.  An operator
that rejects its operands makes the expression fail; the failure aborts only
its own statement.  A refused write ends the execution.
-/

namespace Scriptlet

inductive Rejection where
  | numberNeeded
  | numbersNeeded
  | numbersOrTextsNeeded
  | unknownUnary
  | unknownBinary
  deriving DecidableEq, Repr

def Rejection.message : Rejection → String
  | numberNeeded => "Operand must be a number."
  | numbersNeeded => "Operands must be numbers."
  | numbersOrTextsNeeded => "Operands must be two numbers or two strings."
  | unknownUnary => "Unknown unary operator."
  | unknownBinary => "Unknown binary operator."

structure RuntimeError where
  node : Expr
  op : Token
  reason : Rejection

namespace RuntimeError

def record (e : RuntimeError) : Record := e.op.record .eval (utf8 e.reason.message)

def text (e : RuntimeError) : Bytes := e.record.text

end RuntimeError

namespace Operator

def unary (op : Kind) (operand : Value) : Except Rejection Value :=
  match op, operand with
  | .bang, v => .ok (.boolean !v.truthy)
  | .minus, .number x => .ok (.number (-x))
  | .minus, _ => .error .numberNeeded
  | _, _ => .error .unknownUnary

def arithmetic (op : Kind) (x y : Float) : Except Rejection Value :=
  match op with
  | .minus => .ok (.number (x - y))
  | .star => .ok (.number (x * y))
  | .slash => .ok (.number (x / y))
  | .greater => .ok (.boolean (x > y))
  | .greaterEqual => .ok (.boolean (x ≥ y))
  | .less => .ok (.boolean (x < y))
  | .lessEqual => .ok (.boolean (x ≤ y))
  | _ => .error .unknownBinary

def binary (op : Kind) (left right : Value) : Except Rejection Value :=
  match op with
  | .equalEqual => .ok (.boolean (left.equal right))
  | .bangEqual => .ok (.boolean !(left.equal right))
  | .plus =>
    match left, right with
    | .number x, .number y => .ok (.number (x + y))
    | .text s, .text t => .ok (.text (s ++ t))
    | _, _ => .error .numbersOrTextsNeeded
  | _ =>
    match left, right with
    | .number x, .number y => arithmetic op x y
    | _, _ => .error .numbersNeeded

end Operator

/-- Why an evaluation has no value: an operation failed, or a node is absent. -/
inductive Halt where
  | failed (error : RuntimeError)
  | absent (what : Absence)

namespace Expr

def eval : Expr → Except Halt Value
  | missing => .error (.absent .expression)
  | literal value => .ok value
  | grouping inner => inner.eval
  | unary op operand =>
    match operand.eval with
    | .error halt => .error halt
    | .ok v =>
      match Operator.unary op.kind v with
      | .ok result => .ok result
      | .error reason => .error (.failed ⟨unary op operand, op, reason⟩)
  | binary left op right =>
    match left.eval with
    | .error halt => .error halt
    | .ok l =>
      match right.eval with
      | .error halt => .error halt
      | .ok r =>
        match Operator.binary op.kind l r with
        | .ok result => .ok result
        | .error reason => .error (.failed ⟨binary left op right, op, reason⟩)

end Expr

/-! ## Statements -/

/-- The result of one statement; a failed statement has the value `nil`. -/
structure Outcome where
  stmt : Stmt
  value : Value
  error : Option RuntimeError := none

inductive Ending where
  | completed
  | refused
  | absent (what : Absence)
  deriving DecidableEq, Repr

structure Execution where
  outcomes : List Outcome
  console : Console
  ending : Ending

namespace Stmt

def expr : Stmt → Expr
  | missing => .missing
  | print e => e
  | expression e => e

def isPrint : Stmt → Bool
  | print _ => true
  | _ => false

def eval (s : Stmt) : Except Halt Value :=
  match s with
  | missing => .error (.absent .statement)
  | print e | expression e => e.eval

def line? (s : Stmt) : Option Bytes :=
  match s.isPrint, s.eval with
  | true, .ok v => some (v.shown ++ [newline])
  | _, _ => none

end Stmt

namespace Execution

/-- Executes statements in order, after those with the outcomes `done` (latest first). -/
def runFrom (done : List Outcome) (console : Console) : List Stmt → Execution
  | [] => ⟨done.reverse, console, .completed⟩
  | s :: rest =>
    match s.eval with
    | .error (.absent what) => ⟨done.reverse, console, .absent what⟩
    | .error (.failed e) => runFrom (⟨s, .nil, some e⟩ :: done) console rest
    | .ok v =>
      if s.isPrint then
        let line := v.shown ++ [newline]
        if console.accepts .stdout then
          runFrom (⟨s, v, none⟩ :: done) (console.write .stdout line) rest
        else ⟨done.reverse, console.write .stdout line, .refused⟩
      else runFrom (⟨s, v, none⟩ :: done) console rest

def run (console : Console) (stmts : List Stmt) : Execution := runFrom [] console stmts

def errors (e : Execution) : List RuntimeError := e.outcomes.filterMap Outcome.error

def records (e : Execution) : Diagnostics := e.errors.map RuntimeError.record

def fault? (e : Execution) : Option Fault :=
  match e.ending with
  | .refused =>
    some <| (Fault.wrap (.plain Console.refusal) (utf8 "write print output")).update
      fun own => { own.withCode .inputOutput with operation := utf8 "print" }
  | _ => none

end Execution

end Scriptlet
