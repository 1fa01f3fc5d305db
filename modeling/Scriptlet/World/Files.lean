import Scriptlet.World.Path

/-!
# Files

A tree of files and directories.  Most of it lies below the working directory.
-/

namespace Scriptlet

inductive FileProblem where
  | absent
  | notDirectory
  | isDirectory
  | invalidName
  | nameTooLong
  deriving DecidableEq, Repr

def FileProblem.message : FileProblem → String
  | absent => "no such file or directory"
  | notDirectory => "not a directory"
  | isDirectory => "is a directory"
  | invalidName => "invalid argument"
  | nameTooLong => "file name too long"

inductive FileNode where
  | file (content : Bytes)
  | directory
  deriving DecidableEq, Repr, Inhabited

def longestName : Nat := 255

def pathLimit : Nat := 4096

/-- The files by their paths; a path that ends in a slash names a directory. -/
abbrev Files := List (Bytes × Bytes)

namespace Files

def partsOf (path : Bytes) : List Bytes := (Path.parts path).filter fun p => !p.isEmpty

def node? (files : Files) (parts : List Bytes) : Option FileNode :=
  if parts.isEmpty then some .directory
  else
    match files.find? fun (path, _) =>
        partsOf path == parts && path.getLast? != some Path.slash with
    | some (_, content) => some (.file content)
    | none =>
      if files.any fun (path, _) => parts.isPrefixOf (partsOf path) then some .directory
      else none

/--
Follows the parts of a path from the directory `current` below the working
directory.  Nothing outside the working directory is known.
-/
def follow (files : Files) : (current : List Bytes) → List Bytes →
    Except FileProblem FileNode
  | current, [] =>
    match files.node? current with
    | some node => .ok node
    | none => .error .absent
  | current, part :: rest =>
    match files.node? current with
    | none => .error .absent
    | some (.file _) => .error .notDirectory
    | some .directory =>
      if part == [] || part == Path.dot then follow files current rest
      else if part == Path.dotDot then
        if current.isEmpty then
          if rest.all fun p => p == [] || p == Path.dot then .ok .directory
          else .error .absent
        else follow files current.dropLast rest
      else if longestName < part.length then .error .nameTooLong
      else follow files (current ++ [part]) rest

def listed? (files : Files) (path : Bytes) : Option FileNode :=
  files.findSome? fun (own, content) =>
    if own.getLast? == some Path.slash then
      if own.dropLast == path then some .directory else none
    else if own == path then some (.file content) else none

/-- What a path names; a path that leaves the working directory has to be listed. -/
def find (files : Files) (path : Bytes) : Except FileProblem FileNode :=
  if path.contains 0 then .error .invalidName
  else if path.isEmpty then .error .absent
  else if pathLimit ≤ path.length then .error .nameTooLong
  else
    match files.listed? path with
    | some node => .ok node
    | none =>
      if Path.isAbsolute path then
        if (partsOf path).isEmpty then .ok .directory else .error .absent
      else follow files [] (Path.parts path)

def exists? (files : Files) (path : Bytes) : Bool := (files.find path).isOk

def read (files : Files) (path : Bytes) : Except Bytes Bytes :=
  let refuse (verb : String) (problem : FileProblem) : Bytes :=
    utf8 verb ++ path ++ utf8 ": " ++ utf8 problem.message
  match files.find path with
  | .ok (.file content) => .ok content
  | .ok .directory => .error (refuse "read " .isDirectory)
  | .error problem => .error (refuse "open " problem)

end Files

end Scriptlet
