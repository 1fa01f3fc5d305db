import Scriptlet.Text.Bytes

/-!
# Environment variables and paths
-/

namespace Scriptlet

abbrev Environment := List (Bytes × Bytes)

namespace Environment

def get? (env : Environment) (name : Bytes) : Option Bytes :=
  (env.find? fun entry => entry.1 == name).map Prod.snd

def nonempty? (env : Environment) (name : Bytes) : Option Bytes :=
  match env.get? name with
  | some [] => none
  | value => value

/-! ## Expansion -/

def dollar : UInt8 := 0x24

def braceOpen : UInt8 := 0x7B

def braceClose : UInt8 := 0x7D

def isSpecial (b : UInt8) : Bool :=
  Bytes.isDigit b || (utf8 "*#$@!?-").contains b

def isNameByte (b : UInt8) : Bool := b == 0x5F || Bytes.isDigit b || Bytes.isLetter b

inductive Reference where
  | variable (name : Bytes)
  | nothing
  | dollar
  deriving DecidableEq, Repr

/--
Reads the reference behind a dollar sign.  Empty braces stand for nothing, and
so does a brace that nothing closes.
-/
def reference : Bytes → Reference × Bytes
  | [] => (.dollar, [])
  | b :: rest =>
    if b == braceOpen then
      match Bytes.cut? braceClose rest with
      | some ([], after) => (.nothing, after)
      | some (name, after) => (.variable name, after)
      | none => (.nothing, rest)
    else if isSpecial b then (.variable [b], rest)
    else
      match (b :: rest).takeWhile isNameByte with
      | [] => (.dollar, b :: rest)
      | name => (.variable name, (b :: rest).dropWhile isNameByte)

def expandFrom (env : Environment) : (fuel : Nat) → Bytes → Bytes
  | 0, s => s
  | fuel + 1, s =>
    let text := s.takeWhile (· != dollar)
    match s.dropWhile (· != dollar) with
    | [] => text
    | _ :: [] => text ++ [dollar]
    | _ :: rest =>
      match reference rest with
      | (.variable name, after) =>
        text ++ (env.get? name).getD [] ++ expandFrom env fuel after
      | (.nothing, after) => text ++ expandFrom env fuel after
      | (.dollar, after) => text ++ dollar :: expandFrom env fuel after

def expand (env : Environment) (s : Bytes) : Bytes := expandFrom env s.length s

end Environment

namespace Path

def slash : UInt8 := 0x2F

def dot : Bytes := utf8 "."

def dotDot : Bytes := utf8 ".."

def parts (path : Bytes) : List Bytes := path.splitOn slash

def isAbsolute (path : Bytes) : Bool := path.head? == some slash

def cleanParts (absolute : Bool) : (kept : List Bytes) → List Bytes → List Bytes
  | kept, [] => kept.reverse
  | kept, part :: rest =>
    if part == [] || part == dot then cleanParts absolute kept rest
    else if part == dotDot then
      match kept with
      | [] => cleanParts absolute (if absolute then [] else [dotDot]) rest
      | last :: earlier =>
        if last == dotDot then cleanParts absolute (dotDot :: kept) rest
        else cleanParts absolute earlier rest
    else cleanParts absolute (part :: kept) rest

def clean (path : Bytes) : Bytes :=
  let kept := Bytes.join [slash] (cleanParts (isAbsolute path) [] (parts path))
  if isAbsolute path then slash :: kept else if kept.isEmpty then dot else kept

def join (elements : List Bytes) : Bytes :=
  match elements.filter fun e => !e.isEmpty with
  | [] => []
  | present => clean (Bytes.join [slash] present)

def base (path : Bytes) : Bytes :=
  if path.isEmpty then dot
  else
    match Bytes.dropEndWhile (· == slash) path with
    | [] => [slash]
    | trimmed => (trimmed.reverse.takeWhile (· != slash)).reverse

def directory (path : Bytes) : Bytes :=
  clean ((path.reverse.dropWhile (· != slash)).reverse)

def suffix (path : Bytes) : Bytes :=
  let last := (path.reverse.takeWhile (· != slash))
  let ending := last.takeWhile (· != 0x2E)
  if ending.length < last.length then 0x2E :: ending.reverse else []

end Path

end Scriptlet
