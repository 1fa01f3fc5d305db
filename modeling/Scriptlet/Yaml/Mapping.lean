import Scriptlet.Yaml.Resolve

/-!
# Mappings by name

The entries of a mapping under the names that its keys spell.  A key is given
once; the entry `<<` takes over the entries of other mappings, in which those
do not count whose names are already there.
-/

namespace Scriptlet.Yaml

def Node.isNull : Node → Bool
  | .scalar none isPlain s => isPlain && isNullWord s
  | .scalar (some tag) _ _ => tag == utf8 "!!null"
  | _ => false

def Node.isMerge : Node → Bool
  | .scalar none isPlain s => isPlain && s == utf8 "<<"
  | .scalar (some tag) _ s => tag == utf8 "!!merge" && s == utf8 "<<"
  | _ => false

def Node.sameKey : Node → Node → Bool
  | .scalar _ _ a, .scalar _ _ b => a == b
  | .alias a _, .alias b _ => a == b
  | .sequence _ _, .sequence _ _ => true
  | .mapping _ _, .mapping _ _ => true
  | _, _ => false

def distinctKeys : List (Node × Node) → Bool
  | [] => true
  | (key, _) :: rest => rest.all (fun entry => !key.sameKey entry.1) && distinctKeys rest

namespace Document

def targetFrom? (d : Document) : (fuel : Nat) → Node → Option Node
  | 0, _ => none
  | fuel + 1, .alias _ target => (d.named? target).bind (targetFrom? d fuel)
  | _ + 1, node => some node

def target? (d : Document) (node : Node) : Option Node :=
  d.targetFrom? (d.named.length + 1) node

def meaning? (d : Document) (node : Node) : Option Meaning :=
  match d.target? node with
  | some (.scalar tag isPlain s) => Yaml.meaning? tag isPlain s
  | _ => none

def text? (d : Document) (node : Node) : Option (Option Bytes) :=
  match d.target? node with
  | some (.scalar tag isPlain s) =>
    (Yaml.meaning? tag isPlain s).map fun
      | .null => none
      | .text text => some text
      | .boolean _ | .other => some s
  | _ => none

structure Found where
  entries : List (Bytes × Node) := []
  names : List Bytes := []
  active : List Nat := []
  deriving Inhabited

/--
Adds the entries of a mapping.  In the first mapping a known name may be spelled
in one way only; in further ones names that are taken do not count.
-/
def ownEntries? (d : Document) (known : List Bytes) (isFirst : Bool) (f : Found) :
    List (Node × Node) → Option Found
  | [] => some f
  | (key, value) :: rest =>
    if key.isMerge then ownEntries? d known isFirst f rest
    else
      match d.text? key with
      | none => none
      | some none => ownEntries? d known isFirst f rest
      | some (some name) =>
        if f.names.contains name then
          if isFirst && known.contains name then none
          else ownEntries? d known isFirst f rest
        else
          ownEntries? d known isFirst
            { f with entries := (name, value) :: f.entries, names := name :: f.names } rest

mutual

def collect? (d : Document) (known : List Bytes) :
    (fuel : Nat) → (isFirst : Bool) → Found → List (Node × Node) → Option Found
  | 0, _, _, _ => none
  | fuel + 1, isFirst, f, entries =>
    if !distinctKeys entries then none
    else
      match ownEntries? d known isFirst f entries with
      | none => none
      | some f =>
        match entries.find? fun entry => entry.1.isMerge with
        | none => some f
        | some (_, .sequence _ items) => mergeAll? d known fuel f items
        | some (_, node) => merge? d known fuel f node

def merge? (d : Document) (known : List Bytes) :
    (fuel : Nat) → Found → Node → Option Found
  | 0, _, _ => none
  | fuel + 1, f, node =>
    match node with
    | .mapping _ entries => collect? d known fuel false f entries
    | .alias _ target =>
      if f.active.contains target then none
      else
        match d.named? target with
        | some (.mapping _ entries) =>
          (collect? d known fuel false { f with active := target :: f.active } entries).map
            fun found => { found with active := f.active }
        | _ => none
    | _ => none

def mergeAll? (d : Document) (known : List Bytes) :
    (fuel : Nat) → Found → List Node → Option Found
  | 0, _, _ => none
  | _ + 1, f, [] => some f
  | fuel + 1, f, node :: rest =>
    match merge? d known fuel f node with
    | none => none
    | some f => mergeAll? d known fuel f rest

end

/-- A bound on how deep mappings can merge each other. -/
def mergeDepth (d : Document) : Nat := 4 * (d.size + 2) * (d.named.length + 2)

def entries? (d : Document) (known : List Bytes) (node : Node) : Option (List (Bytes × Node)) :=
  match d.target? node with
  | some (.mapping _ entries) =>
    (collect? d known d.mergeDepth true {} entries).map fun f => f.entries.reverse
  | _ => none

end Document

end Scriptlet.Yaml
