/-!
# Sets of code points

A set of code points is given by the code points at which membership changes,
in ascending order: the first starts a run of members, the second ends it, and
so on.
-/

namespace Scriptlet

structure CodeSet where
  changes : Array Nat

namespace CodeSet

/-- A code point is a member if an odd number of changes lies at or below it. -/
def contains (set : CodeSet) (code : Nat) : Bool :=
  set.changes.countP (· ≤ code) % 2 == 1

end CodeSet

end Scriptlet
