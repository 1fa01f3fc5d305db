import Scriptlet.Grapheme.Width

/-!
# Display columns

How many columns of a terminal a text takes.  Control sequences take none;
which bytes belong to one is decided byte by byte, as a terminal does it.
Printable ASCII takes one column, and a cluster of characters its own width.
-/

namespace Scriptlet.Columns

inductive State where
  | ground
  | escape
  | escapeIntermediate
  | controlEntry
  | controlParameter
  | controlIntermediate
  | deviceEntry
  | deviceParameter
  | deviceIntermediate
  | deviceString
  | commandString
  | privateString
  deriving DecidableEq, Repr

inductive Effect where
  | shown
  | character
  | goes (next : State)
  deriving DecidableEq, Repr

def within (first last b : UInt8) : Bool := first ≤ b && b ≤ last

def isPlainControl (b : UInt8) : Bool := b ≤ 0x17 || b == 0x19 || within 0x1C 0x1F b

def anywhere? (b : UInt8) : Option Effect :=
  if b == 0x18 || b == 0x1A || b == 0x99 || b == 0x9A || b == 0x9C then some (.goes .ground)
  else if b == 0x1B then some (.goes .escape)
  else if b == 0x90 then some (.goes .deviceEntry)
  else if b == 0x9B then some (.goes .controlEntry)
  else if b == 0x9D then some (.goes .commandString)
  else if b == 0x98 || b == 0x9E || b == 0x9F then some (.goes .privateString)
  else if within 0x80 0x97 b then some (.goes .ground)
  else if within 0xC2 0xF4 b then some .character
  else none

def escaped (b : UInt8) : State :=
  if isPlainControl b || b == 0x7F then .escape
  else if within 0x20 0x2F b then .escapeIntermediate
  else if b == 0x50 then .deviceEntry
  else if b == 0x5B then .controlEntry
  else if b == 0x5D then .commandString
  else if b == 0x58 || b == 0x5E || b == 0x5F then .privateString
  else .ground

def State.step (s : State) (b : UInt8) : Effect :=
  match s with
  | .ground => if within 0x20 0x7E b then .shown else .goes .ground
  | .escape => .goes (escaped b)
  | .escapeIntermediate =>
    .goes (if isPlainControl b || within 0x20 0x2F b || b == 0x7F then .escapeIntermediate
      else .ground)
  | .controlEntry =>
    .goes (if isPlainControl b || b == 0x7F then .controlEntry
      else if within 0x20 0x2F b then .controlIntermediate
      else if within 0x30 0x3F b then .controlParameter
      else .ground)
  | .controlParameter =>
    .goes (if isPlainControl b || within 0x30 0x3F b || b == 0x7F then .controlParameter
      else if within 0x20 0x2F b then .controlIntermediate
      else .ground)
  | .controlIntermediate =>
    .goes (if isPlainControl b || within 0x20 0x2F b || b == 0x7F then .controlIntermediate
      else .ground)
  | .deviceEntry =>
    .goes (if within 0x08 0x0D b then .deviceString
      else if isPlainControl b || b == 0x7F then .deviceEntry
      else if within 0x20 0x2F b then .deviceIntermediate
      else if within 0x30 0x3F b then .deviceParameter
      else if within 0x40 0x7E b then .deviceString
      else .ground)
  | .deviceParameter =>
    .goes (if isPlainControl b || within 0x30 0x3F b || b == 0x7F then .deviceParameter
      else if within 0x20 0x2F b then .deviceIntermediate
      else if within 0x40 0x7E b then .deviceString
      else .ground)
  | .deviceIntermediate =>
    .goes (if isPlainControl b || within 0x20 0x2F b || b == 0x7F then .deviceIntermediate
      else if within 0x30 0x7E b then .deviceString
      else .ground)
  | .deviceString => .goes .deviceString
  | .commandString => .goes (if b == 0x07 then .ground else .commandString)
  | .privateString => .goes (if b ≤ 0x7F then .privateString else .ground)

/-- Strings for devices and the operating system may hold any byte from `0x80` on but `0x9C`. -/
def State.holds (s : State) (b : UInt8) : Bool :=
  (s == .deviceString || s == .commandString) && 0x80 ≤ b && b != 0x9C

def State.effect (s : State) (b : UInt8) : Effect :=
  if s.holds b then .goes s
  else if s == .deviceEntry && b == 0x1B then .goes .deviceString
  else (anywhere? b).getD (s.step b)

def widthFrom (state : State) (columns : Nat) (s : Bytes) : Nat :=
  match s with
  | [] => columns
  | b :: rest =>
    match state.effect b with
    | .shown => widthFrom .ground (columns + 1) rest
    | .goes next => widthFrom next columns rest
    | .character =>
      let cluster := Grapheme.firstCluster b rest
      let taken := (cluster.flatMap Rune.bytes).length - 1
      widthFrom .ground (columns + Grapheme.clusterWidth (cluster.map Rune.code))
        (rest.drop taken)
  termination_by s.length
  decreasing_by
    all_goals simp only [List.length_drop, List.length_cons]
    all_goals omega

def width (s : Bytes) : Nat := widthFrom .ground 0 s

end Scriptlet.Columns
