import Scriptlet.Settings.Basic

/-!
# Setting up the log
-/

namespace Scriptlet

structure LogSetup where
  name : Bytes
  level : Bytes := utf8 "warn"
  format : Bytes := utf8 "text"
  deriving Inhabited

namespace LogSetup

/-- An empty name means the default; an override counts more, verbosity most. -/
def ofNames (name level format override : Bytes) (verbose : Bool) : LogSetup :=
  let orElse (s default : Bytes) := if s.isEmpty then default else s
  { name := name
    level := if verbose then utf8 "debug" else orElse override (orElse level (utf8 "warn"))
    format := orElse format (utf8 "text") }

def logger (s : LogSetup) : Logger :=
  { level := (Level.parse? s.level).getD .warn
    format := (Format.parse? s.format).getD .text
    name := s.name }

/--
Writes log lines to the first of several outputs that may refuse writes after
some number, and to the others; a refused line reaches none of them.
-/
def distribute (limit : Option Nat) (others : Nat) (lines : List Bytes) : List Bytes :=
  let accepted := match limit with
    | some n => lines.take n
    | none => lines
  List.replicate (others + 1) accepted.flatten

end LogSetup

end Scriptlet
