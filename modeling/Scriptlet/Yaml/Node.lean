import Scriptlet.Yaml.Scan

/-!
# Nodes

The first document of a stream as a tree of scalars, sequences and mappings.
An anchor gives a node a name, and an alias stands for the node that had the
name latest, so the nodes with names are kept beside the tree.
-/

namespace Scriptlet.Yaml

inductive Node where
  | scalar (tag : Option Bytes) (isPlain : Bool) (text : Bytes)
  | sequence (tag : Option Bytes) (items : List Node)
  | mapping (tag : Option Bytes) (entries : List (Node × Node))
  | alias (name : Bytes) (target : Nat)
  deriving Inhabited

structure Document where
  root : Node
  named : List (Nat × Node) := []
  size : Nat := 1
  deriving Inhabited

def Document.named? (d : Document) (target : Nat) : Option Node :=
  (d.named.find? fun entry => entry.1 == target).map Prod.snd

/-! ## Reading tokens -/

structure Parser where
  tokens : List Token
  handles : List (Bytes × Bytes) := []
  names : List (Bytes × Nat) := []
  named : List (Nat × Node) := []
  deriving Inhabited

namespace Parser

def empty : Node := .scalar none true []

def peek? (p : Parser) : Option Token := p.tokens.head?

def skip (p : Parser) : Parser := { p with tokens := p.tokens.tail }

def sees (p : Parser) (tokens : List Token) : Bool := p.peek?.any tokens.contains

structure Properties where
  anchor : Option Bytes := none
  tag : Option Bytes := none
  deriving Inhabited

def coreTags : Bytes := utf8 "tag:yaml.org,2002:"

def shortened (tag : Bytes) : Bytes :=
  match coreTags.isPrefixOf? tag with
  | some rest => utf8 "!!" ++ rest
  | none => tag

def wholeTag? (p : Parser) (handle suffix : Bytes) : Option Bytes :=
  if handle.isEmpty then some suffix
  else
    match p.handles.find? fun entry => entry.1 == handle with
    | some (_, start) => if (start ++ suffix).isEmpty then none else some (start ++ suffix)
    | none => none

def properties? (p : Parser) : Option (Properties × Parser) :=
  match p.tokens with
  | .anchor name :: .tag handle suffix :: rest =>
    (p.wholeTag? handle suffix).map fun tag => (⟨some name, some tag⟩, { p with tokens := rest })
  | .tag handle suffix :: .anchor name :: rest =>
    (p.wholeTag? handle suffix).map fun tag => (⟨some name, some tag⟩, { p with tokens := rest })
  | .anchor name :: rest => some (⟨some name, none⟩, { p with tokens := rest })
  | .tag handle suffix :: rest =>
    (p.wholeTag? handle suffix).map fun tag => (⟨none, some tag⟩, { p with tokens := rest })
  | _ => some ({}, p)

def Properties.kept (own : Properties) : Option Bytes :=
  (own.tag.filter (· != utf8 "!")).map shortened

def named? (p : Parser) (own : Properties) : Option Nat × Parser :=
  match own.anchor with
  | none => (none, p)
  | some name => (some p.names.length, { p with names := (name, p.names.length) :: p.names })

def keep (p : Parser) (number : Option Nat) (node : Node) : Parser :=
  match number with
  | none => p
  | some number => { p with named := (number, node) :: p.named }

mutual

/--
A node.  Block collections can stand outside of brackets and braces only, and a
sequence without indentation of its own only inside a block mapping.
-/
def node? (inBlock indentless : Bool) : (fuel : Nat) → Parser → Option (Node × Parser)
  | 0, _ => none
  | fuel + 1, p =>
    match p.tokens with
    | .alias name :: rest =>
      match p.names.find? fun entry => entry.1 == name with
      | some (_, target) => some (.alias name target, { p with tokens := rest })
      | none => none
    | _ =>
      match p.properties? with
      | none => none
      | some (own, p) =>
        let (number, p) := p.named? own
        match content? inBlock indentless own fuel p with
        | none => none
        | some (node, p) => some (node, p.keep number node)

def content? (inBlock indentless : Bool) (own : Properties) :
    (fuel : Nat) → Parser → Option (Node × Parser)
  | 0, _ => none
  | fuel + 1, p =>
    let bare : Option (Node × Parser) :=
      if p.tokens.isEmpty || (own.anchor.isNone && own.tag.isNone) then none
      else some (.scalar own.kept true [], p)
    match p.peek? with
    | some (.scalar text isPlain) => some (.scalar own.kept isPlain text, p.skip)
    | some .flowSequenceStart =>
      (flowItems? true [] fuel p.skip).map fun (items, p) => (.sequence own.kept items, p)
    | some .flowMappingStart =>
      (flowEntries? true [] fuel p.skip).map fun (entries, p) => (.mapping own.kept entries, p)
    | some .blockEntry =>
      if indentless then
        (indentlessItems? [] fuel p).map fun (items, p) => (.sequence own.kept items, p)
      else bare
    | some .blockSequenceStart =>
      if inBlock then
        (blockItems? [] fuel p.skip).map fun (items, p) => (.sequence own.kept items, p)
      else bare
    | some .blockMappingStart =>
      if inBlock then
        (blockEntries? [] fuel p.skip).map fun (entries, p) => (.mapping own.kept entries, p)
      else bare
    | _ => bare

def optional? (inBlock indentless : Bool) (ends : List Token) :
    (fuel : Nat) → Parser → Option (Node × Parser)
  | 0, _ => none
  | fuel + 1, p => if p.sees ends then some (empty, p) else node? inBlock indentless fuel p

def blockItems? (done : List Node) : (fuel : Nat) → Parser → Option (List Node × Parser)
  | 0, _ => none
  | fuel + 1, p =>
    match p.peek? with
    | some .blockEntry =>
      match optional? true false [.blockEntry, .blockEnd] fuel p.skip with
      | none => none
      | some (item, p) => blockItems? (item :: done) fuel p
    | some .blockEnd => some (done.reverse, p.skip)
    | _ => none

def indentlessItems? (done : List Node) : (fuel : Nat) → Parser → Option (List Node × Parser)
  | 0, _ => none
  | fuel + 1, p =>
    match p.peek? with
    | some .blockEntry =>
      match optional? true false [.blockEntry, .key, .value, .blockEnd] fuel p.skip with
      | none => none
      | some (item, p) => indentlessItems? (item :: done) fuel p
    | some _ => some (done.reverse, p)
    | none => none

def blockEntries? (done : List (Node × Node)) :
    (fuel : Nat) → Parser → Option (List (Node × Node) × Parser)
  | 0, _ => none
  | fuel + 1, p =>
    match p.peek? with
    | some .key =>
      match optional? true true [.key, .value, .blockEnd] fuel p.skip with
      | none => none
      | some (key, p) =>
        match p.peek? with
        | none => none
        | some .value =>
          match optional? true true [.key, .value, .blockEnd] fuel p.skip with
          | none => none
          | some (value, p) => blockEntries? ((key, value) :: done) fuel p
        | some _ => blockEntries? ((key, empty) :: done) fuel p
    | some .blockEnd => some (done.reverse, p.skip)
    | _ => none

def flowItems? (isFirst : Bool) (done : List Node) :
    (fuel : Nat) → Parser → Option (List Node × Parser)
  | 0, _ => none
  | fuel + 1, p =>
    if p.sees [.flowSequenceEnd] then some (done.reverse, p.skip)
    else if !isFirst && !p.sees [.flowEntry] then none
    else
      let p := if isFirst then p else p.skip
      match p.peek? with
      | none => none
      | some .flowSequenceEnd => some (done.reverse, p.skip)
      | some .key =>
        match pair? fuel p.skip with
        | none => none
        | some (key, value, p) =>
          flowItems? false (.mapping none [(key, value)] :: done) fuel p
      | some _ =>
        match node? false false fuel p with
        | none => none
        | some (item, p) => flowItems? false (item :: done) fuel p

def pair? : (fuel : Nat) → Parser → Option (Node × Node × Parser)
  | 0, _ => none
  | fuel + 1, p =>
    let keyed : Option (Node × Parser) :=
      if p.sees [.value, .flowEntry, .flowSequenceEnd] then some (empty, p.skip)
      else node? false false fuel p
    match keyed with
    | none => none
    | some (key, p) =>
      match p.peek? with
      | none => none
      | some .value =>
        match optional? false false [.flowEntry, .flowSequenceEnd] fuel p.skip with
        | none => none
        | some (value, p) => some (key, value, p)
      | some _ => some (key, empty, p)

/-- The entries of a mapping between braces; one without a colon has an empty value. -/
def flowEntries? (isFirst : Bool) (done : List (Node × Node)) :
    (fuel : Nat) → Parser → Option (List (Node × Node) × Parser)
  | 0, _ => none
  | fuel + 1, p =>
    if p.sees [.flowMappingEnd] then some (done.reverse, p.skip)
    else if !isFirst && !p.sees [.flowEntry] then none
    else
      let p := if isFirst then p else p.skip
      match p.peek? with
      | none => none
      | some .flowMappingEnd => some (done.reverse, p.skip)
      | some .key =>
        match optional? false false [.value, .flowEntry, .flowMappingEnd] fuel p.skip with
        | none => none
        | some (key, p) =>
          match p.peek? with
          | none => none
          | some .value =>
            match optional? false false [.flowEntry, .flowMappingEnd] fuel p.skip with
            | none => none
            | some (value, p) => flowEntries? false ((key, value) :: done) fuel p
          | some _ => flowEntries? false ((key, empty) :: done) fuel p
      | some _ =>
        match node? false false fuel p with
        | none => none
        | some (key, p) => flowEntries? false ((key, empty) :: done) fuel p

end

/-! ## Documents -/

def commonHandles : List (Bytes × Bytes) := [(utf8 "!", utf8 "!"), (utf8 "!!", coreTags)]

def directives? (versioned : Bool) : (fuel : Nat) → Parser → Option Parser
  | 0, _ => none
  | fuel + 1, p =>
    match p.peek? with
    | none => none
    | some (.versionDirective major minor) =>
      if versioned || major != 1 || minor != 1 then none else directives? true fuel p.skip
    | some (.tagDirective handle start) =>
      if p.handles.any fun entry => entry.1 == handle then none
      else
        directives? versioned fuel { p.skip with handles := p.handles ++ [(handle, start)] }
    | some _ => some { p with handles := p.handles ++ commonHandles }

def document? (p : Parser) : Option Document :=
  let size := 4 * p.tokens.length + 8
  match node? true false size p with
  | none => none
  | some (root, p) => if p.tokens.isEmpty then none else some ⟨root, p.named, size⟩

def startsExplicitly (p : Parser) : Bool :=
  match p.peek? with
  | some (.versionDirective _ _) | some (.tagDirective _ _) | some .documentStart => true
  | _ => false

def lacksContent (p : Parser) : Bool :=
  p.startsExplicitly || p.sees [.documentEnd, .streamEnd]

def stream? (p : Parser) : Option (Option Document) :=
  if p.sees [.streamEnd] then some none
  else if p.startsExplicitly then
    match directives? false (p.tokens.length + 1) p with
    | none => none
    | some p =>
      if !p.sees [.documentStart] then none
      else if p.skip.tokens.isEmpty then none
      else if p.skip.lacksContent then some (some { root := empty })
      else p.skip.document?.map some
  else ({ p with handles := commonHandles } : Parser).document?.map some

end Parser

def parse? (s : Bytes) : Option (Option Document) :=
  match characters? s with
  | none => none
  | some characters =>
    match tokens characters with
    | .streamStart :: rest => Parser.stream? { tokens := rest }
    | _ => none

end Scriptlet.Yaml
