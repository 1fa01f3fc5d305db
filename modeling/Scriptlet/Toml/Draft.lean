import Scriptlet.Toml.Syntax

/-!
# Tables from statements

The statements of a document fill one table.  A key is defined once, but a
table that only a longer key has brought about may still be opened by name
once, and what holds an array may be replaced.  Tables between braces are
filled in place, like those of headers.
-/

namespace Scriptlet.Toml

inductive Item where
  | text (s : Bytes)
  | integer (i : Int)
  | boolean (b : Bool)
  /-- A number with a fraction, or a date or time. -/
  | other
  | array (items : List Item)
  | tables (entries : List (List (Bytes × Item)))
  | table (entries : List (Bytes × Item))
  deriving Inhabited

def Item.isArray : Item → Bool
  | .array _ => true
  | _ => false

abbrev Table := List (Bytes × Item)

namespace Table

def get? (t : Table) (key : Bytes) : Option Item :=
  (t.find? fun entry => entry.1 == key).map Prod.snd

def put (t : Table) (key : Bytes) (item : Item) : Table :=
  if t.any fun entry => entry.1 == key then
    t.map fun entry => if entry.1 == key then (key, item) else entry
  else t ++ [(key, item)]

def putAt? : Path → Item → Table → Option Table
  | [], _, _ => none
  | [key], item, t => some (t.put key item)
  | key :: path, item, t =>
    match t.get? key with
    | none => (putAt? path item []).map fun inner => t.put key (.table inner)
    | some (.table inner) => (putAt? path item inner).map fun inner => t.put key (.table inner)
    | some _ => none

def change? (change : Table → Option Table) : Path → Table → Option Table
  | [], t => change t
  | key :: path, t =>
    match t.get? key with
    | some (.table inner) => (change? change path inner).map fun i => t.put key (.table i)
    | some (.tables (last :: earlier)) =>
      (change? change path last).map fun i => t.put key (.tables (i :: earlier))
    | _ => none

end Table

structure Draft where
  root : Table := []
  /-- The paths of tables that may still be opened by name. -/
  implicit : List Path := []
  /-- The paths of what was last given as an array. -/
  arrays : List Path := []
  deriving Inhabited

namespace Draft

def addImplicit (d : Draft) (path : Path) : Draft :=
  if d.implicit.contains path then d else { d with implicit := path :: d.implicit }

def removeImplicit (d : Draft) (path : Path) : Draft :=
  { d with implicit := d.implicit.filter (· != path) }

def note (d : Draft) (table : Path) (key : Bytes) (isArray : Bool) : Draft :=
  let path := if key.isEmpty && !table.isEmpty then table else table ++ [key]
  let others := d.arrays.filter (· != path)
  { d with arrays := if isArray then path :: others else others }

def taken (d : Draft) (table : Path) (key : Bytes) : Bool :=
  (d.root.change? (fun t => if (t.get? key).isSome then some t else none) table).isSome

def put? (d : Draft) (table : Path) (key : Bytes) (item : Item) : Option Draft :=
  (d.root.change? (fun t => some (t.put key item)) table).map fun root => { d with root := root }

/--
Puts an item under a key of a table.  An array is replaced, an implicit table
is opened and stays as it is, and another item is in the way.
-/
def set? (d : Draft) (table : Path) (key : Bytes) (item : Item) : Option Draft :=
  let here := table ++ [key]
  if d.taken table key then
    if d.arrays.contains here then (d.removeImplicit here).put? table key item
    else if d.implicit.contains here then some (d.removeImplicit here)
    else none
  else d.put? table key item

def reach? (d : Draft) (table : Path) : Path → Option Draft
  | [] => some d
  | key :: path =>
    let here := table ++ [key]
    if d.taken table key then
      match d.root.change? some here with
      | some _ => reach? d here path
      | none => none
    else ((d.addImplicit here).put? table key (.table [])).bind fun d => reach? d here path

def extend? (d : Draft) (table : Path) (key : Bytes) : Option Draft :=
  (d.root.change? (fun t =>
    match t.get? key with
    | none => some (t.put key (.tables [[]]))
    | some (.tables earlier) => some (t.put key (.tables ([] :: earlier)))
    | some _ => none) table).map fun root => { d with root := root }

def open? (d : Draft) (more : Bool) (path : Path) : Option Draft :=
  match path.getLast? with
  | none => none
  | some key =>
    let table := path.dropLast
    (d.reach? [] table).bind fun d =>
      if more then d.extend? table key else d.set? table key (.table [])

def descend? (d : Draft) (table : Path) : Path → Option Draft
  | [] => some d
  | key :: path =>
    let here := table ++ [key]
    ((d.addImplicit here).open? false here).bind fun d => descend? d here path

def assign? (d : Draft) (table : Path) (key : Bytes) (item : Item) : Option Draft :=
  (d.set? table key item).map fun d => d.note table key item.isArray

mutual

def item? (d : Draft) (table : Path) (key : Bytes) (inArray : Bool) :
    Value → Option (Item × Draft)
  | .text s => some (.text s, d)
  | .integer i => some (.integer i, d)
  | .boolean b => some (.boolean b, d)
  | .other => some (.other, d)
  | .array values =>
    (items? (d.note table key true) table key values).map fun (items, d) => (.array items, d)
  | .table entries =>
    let here := table ++ [key]
    ((d.addImplicit here).open? inArray here).bind fun d =>
      (entries? d here [] entries).map fun (t, d) => (.table t, d)

def items? (d : Draft) (table : Path) (key : Bytes) : List Value → Option (List Item × Draft)
  | [] => some ([], d)
  | value :: values =>
    match item? d table key true value with
    | none => none
    | some (item, d) =>
      (items? d table key values).map fun (items, d) => (item :: items, d)

def entries? (d : Draft) (table : Path) (value : Table) :
    List (Path × Value) → Option (Table × Draft)
  | [] => some (value, d)
  | (key, v) :: rest =>
    let here := table ++ key.dropLast
    let last := key.getLastD []
    match descend? d table key.dropLast with
    | none => none
    | some d =>
      match item? d here last false v with
      | none => none
      | some (item, d) =>
        match d.assign? here last item, value.putAt? key item with
        | some d, some value => entries? d table value rest
        | _, _ => none

end

def statement? (d : Draft) (table : Path) : Statement → Option (Draft × Path)
  | .header path => (d.open? false path).map fun d => (d.note path [] false, path)
  | .arrayHeader path => (d.open? true path).map fun d => (d.note path [] false, path)
  | .entry key value => (d.entries? table [] [(key, value)]).map fun (_, d) => (d, table)

end Draft

def parse? (s : Bytes) : Option Table :=
  match statements? s with
  | none => none
  | some statements =>
    (statements.foldlM (fun (state : Draft × Path) statement =>
      state.1.statement? state.2 statement) (({} : Draft), [])).map fun state => state.1.root

end Scriptlet.Toml
