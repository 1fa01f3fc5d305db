/-!
# Token kinds

The closed set of lexical categories.  Kinds are numbered; a number that
belongs to none of them is kept as an unknown kind, which no rule accepts.
-/

namespace Scriptlet

inductive Kind where
  | leftParen
  | rightParen
  | leftBrace
  | rightBrace
  | comma
  | dot
  | minus
  | plus
  | semicolon
  | slash
  | star
  | bang
  | bangEqual
  | equal
  | equalEqual
  | greater
  | greaterEqual
  | less
  | lessEqual
  | identifier
  | string
  | number
  | kwAnd
  | kwClass
  | kwElse
  | kwFalse
  | kwFn
  | kwFor
  | kwIf
  | kwNil
  | kwOr
  | kwPrint
  | kwReturn
  | kwSuper
  | kwThis
  | kwTrue
  | kwVar
  | kwWhile
  | eof
  | error
  | unknown (code : Int)
  deriving DecidableEq, Repr, Inhabited

namespace Kind

def all : List Kind :=
  [.leftParen, .rightParen, .leftBrace, .rightBrace, .comma, .dot, .minus, .plus,
    .semicolon, .slash, .star, .bang, .bangEqual, .equal, .equalEqual, .greater,
    .greaterEqual, .less, .lessEqual, .identifier, .string, .number, .kwAnd, .kwClass,
    .kwElse, .kwFalse, .kwFn, .kwFor, .kwIf, .kwNil, .kwOr, .kwPrint, .kwReturn,
    .kwSuper, .kwThis, .kwTrue, .kwVar, .kwWhile, .eof, .error]

def ofCode (code : Int) : Kind :=
  if 0 ≤ code then (all[code.toNat]?).getD (.unknown code) else .unknown code

def name : Kind → String
  | leftParen => "LEFT_PAREN"
  | rightParen => "RIGHT_PAREN"
  | leftBrace => "LEFT_BRACE"
  | rightBrace => "RIGHT_BRACE"
  | comma => "COMMA"
  | dot => "DOT"
  | minus => "MINUS"
  | plus => "PLUS"
  | semicolon => "SEMICOLON"
  | slash => "SLASH"
  | star => "STAR"
  | bang => "BANG"
  | bangEqual => "BANG_EQUAL"
  | equal => "EQUAL"
  | equalEqual => "EQUAL_EQUAL"
  | greater => "GREATER"
  | greaterEqual => "GREATER_EQUAL"
  | less => "LESS"
  | lessEqual => "LESS_EQUAL"
  | identifier => "IDENTIFIER"
  | string => "STRING"
  | number => "NUMBER"
  | kwAnd => "AND"
  | kwClass => "CLASS"
  | kwElse => "ELSE"
  | kwFalse => "FALSE"
  | kwFn => "FN"
  | kwFor => "FOR"
  | kwIf => "IF"
  | kwNil => "NIL"
  | kwOr => "OR"
  | kwPrint => "PRINT"
  | kwReturn => "RETURN"
  | kwSuper => "SUPER"
  | kwThis => "THIS"
  | kwTrue => "TRUE"
  | kwVar => "VAR"
  | kwWhile => "WHILE"
  | eof => "EOF"
  | error => "ERROR"
  | unknown _ => "UNKNOWN"

def ofName? (name : String) : Option Kind := all.find? fun k => k.name == name

def keywords : List (String × Kind) :=
  [("and", .kwAnd), ("class", .kwClass), ("else", .kwElse), ("false", .kwFalse),
    ("fn", .kwFn), ("for", .kwFor), ("if", .kwIf), ("nil", .kwNil), ("or", .kwOr),
    ("print", .kwPrint), ("return", .kwReturn), ("super", .kwSuper), ("this", .kwThis),
    ("true", .kwTrue), ("var", .kwVar), ("while", .kwWhile)]

def isKeyword (k : Kind) : Bool := keywords.any fun entry => entry.2 == k

def startsStatement : Kind → Bool
  | kwClass | kwFn | kwVar | kwFor | kwIf | kwWhile | kwPrint | kwReturn => true
  | _ => false

end Kind

end Scriptlet
