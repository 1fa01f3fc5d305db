import Scriptlet.Token.Kind
import Scriptlet.Decimal.Layout

/-!
# Tokens

A token is a classified piece of source text with its payload and the line on
which it ends.
-/

namespace Scriptlet

inductive Payload where
  | none
  | number (value : Float)
  | text (value : Bytes)
  deriving Inhabited

structure Token where
  kind : Kind
  lexeme : Bytes
  line : Int
  payload : Payload := .none
  deriving Inhabited

def Kind.ofWord (word : Bytes) : Kind :=
  match keywords.find? fun entry => utf8 entry.1 == word with
  | some (_, kind) => kind
  | none => .identifier

namespace Token

def isAny (t : Token) (kinds : List Kind) : Bool := kinds.contains t.kind

def payloadText (t : Token) : Bytes :=
  match t.payload with
  | .none => utf8 "nil"
  | .number value => Decimal.plain.write value
  | .text value => value

def dump (t : Token) : Bytes :=
  Bytes.join [space]
    [utf8 t.kind.name, t.lexeme, t.payloadText, Bytes.ofInt t.line]

def site (t : Token) : Bytes :=
  if t.kind = .eof then utf8 " at end" else utf8 " at '" ++ t.lexeme ++ utf8 "'"

end Token

end Scriptlet
