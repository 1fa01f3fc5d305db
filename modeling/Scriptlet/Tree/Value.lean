import Scriptlet.Decimal.Layout

/-!
# Values of the language
-/

namespace Scriptlet

inductive Value where
  | nil
  | boolean (b : Bool)
  | number (x : Float)
  | text (s : Bytes)
  deriving Inhabited

namespace Value

def kindName : Value → String
  | nil => "nil"
  | boolean _ => "boolean"
  | number _ => "number"
  | text _ => "string"

def truthy : Value → Bool
  | nil => false
  | boolean b => b
  | _ => true

def isNil : Value → Bool
  | nil => true
  | _ => false

/--
Values of different kinds differ.  Numbers compare as numbers do, so that the
two zeros are equal and a NaN differs from itself.
-/
def equal : Value → Value → Bool
  | nil, nil => true
  | boolean a, boolean b => a == b
  | number x, number y => x == y
  | text s, text t => s == t
  | _, _ => false

def shown : Value → Bytes
  | nil => utf8 "nil"
  | boolean b => utf8 (if b then "true" else "false")
  | number x => Decimal.plain.write x
  | text s => s

end Value

end Scriptlet
