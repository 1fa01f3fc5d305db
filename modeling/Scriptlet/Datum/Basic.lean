import Scriptlet.Decimal.Layout

/-!
# Data in messages

The values that log fields and error details carry, and the fields
themselves: values under distinct keys in the order of the keys' bytes.
-/

namespace Scriptlet

inductive Datum where
  | nil
  | int (i : Int)
  | float (x : Float)
  | text (s : Bytes)
  | bool (b : Bool)
  | list (items : List Datum)
  | map (entries : List (Bytes × Datum))
  /--
  An error.  A message shows its text, JSON the members that it exports; a plain one
  exports none.
  -/
  | error (message : Bytes) (exported : List (Bytes × Datum))
  deriving Inhabited

namespace Datum

mutual

def shown : Datum → Bytes
  | nil => utf8 "<nil>"
  | int i => Bytes.ofInt i
  | float x => Decimal.general.write x
  | text s => s
  | bool b => utf8 (if b then "true" else "false")
  | list items => utf8 "[" ++ Bytes.join [space] (shownList items) ++ utf8 "]"
  | map entries => utf8 "map[" ++ Bytes.join [space] (shownEntries entries) ++ utf8 "]"
  | error message _ => message

def shownList : List Datum → List Bytes
  | [] => []
  | item :: items => item.shown :: shownList items

def shownEntries : List (Bytes × Datum) → List Bytes
  | [] => []
  | (key, value) :: entries => (key ++ utf8 ":" ++ value.shown) :: shownEntries entries

end

def ofName (s : String) : Datum := text (utf8 s)

def ofNat (n : Nat) : Datum := int n

end Datum

abbrev Fields := List (Bytes × Datum)

namespace Fields

def set (key : Bytes) (value : Datum) : Fields → Fields
  | [] => [(key, value)]
  | (k, v) :: rest =>
    if key == k then (key, value) :: rest
    else if Bytes.before key k then (key, value) :: (k, v) :: rest
    else (k, v) :: set key value rest

def merge (fields other : Fields) : Fields :=
  other.foldl (fun done (key, value) => set key value done) fields

def ofList (entries : List (Bytes × Datum)) : Fields := merge [] entries

def get? (fields : Fields) (key : Bytes) : Option Datum :=
  (fields.find? fun entry => entry.1 == key).map Prod.snd

def shown (fields : Fields) : List Bytes :=
  fields.map fun (key, value) => key ++ utf8 "=" ++ value.shown

def setPairs (fields : Fields) : List Datum → Fields
  | .text key :: value :: rest => setPairs (set key value fields) rest
  | _ :: _ :: rest => setPairs fields rest
  | _ => fields

/--
The fields of alternating keys and values.  A pair whose key is no text is
skipped, and so is a last key without value; the empty list has no fields.
-/
def ofPairs? (items : List Datum) : Option Fields :=
  if items.isEmpty then none else some (setPairs [] items)

end Fields

end Scriptlet
