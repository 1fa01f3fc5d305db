import Scriptlet.Datum.Json

/-!
# A reader of JSON

What a JSON text says, as a tree.  The reader is strict: it takes no blanks between
tokens, no bare control characters in texts and no numerals with superfluous zeros.
Members of an object are kept in the order of the text, equal keys included, and a
number is kept as its numeral.
-/

namespace Scriptlet.Json

inductive Tree where
  | null
  | bool (b : Bool)
  | number (numeral : Bytes)
  | text (s : Bytes)
  | array (items : List Tree)
  | object (members : List (Bytes × Tree))
  deriving Inhabited

/-! ## Numerals -/

/-- A sign stands in front of a number only as a minus, in an exponent also as a plus. -/
def isExponent : Bytes → Bool
  | [] => true
  | mark :: rest =>
    let digits := match rest with
      | 0x2B :: digits => digits
      | 0x2D :: digits => digits
      | digits => digits
    (mark == 0x65 || mark == 0x45) && !digits.isEmpty && digits.all Bytes.isDigit

def isFraction : Bytes → Bool
  | 0x2E :: rest =>
    !(rest.takeWhile Bytes.isDigit).isEmpty && isExponent (rest.dropWhile Bytes.isDigit)
  | s => isExponent s

def isWhole (digits : Bytes) : Bool :=
  !digits.isEmpty && (digits.length == 1 || digits.head? != some 0x30)

def isUnsigned (s : Bytes) : Bool :=
  isWhole (s.takeWhile Bytes.isDigit) && isFraction (s.dropWhile Bytes.isDigit)

def isNumeral : Bytes → Bool
  | 0x2D :: s => isUnsigned s
  | s => isUnsigned s

def isNumeralByte (b : UInt8) : Bool := Bytes.isDigit b || (utf8 "+-.eE").contains b

def number (s : Bytes) : Option (Tree × Bytes) :=
  let numeral := s.takeWhile isNumeralByte
  if isNumeral numeral then some (.number numeral, s.dropWhile isNumeralByte) else none

/-! ## Texts -/

def hexDigits? (digits : Bytes) : Option Nat :=
  digits.foldlM (fun n b => (Bytes.hexValue? b).map (16 * n + ·)) 0

/-- The character behind a backslash; a surrogate stands for none. -/
def escape? : Bytes → Option (Bytes × Bytes)
  | 0x75 :: rest =>
    match hexDigits? (rest.take 4) with
    | none => none
    | some code =>
      if rest.length < 4 || (0xD800 ≤ code && code < 0xE000) then none
      else some (Rune.encode code, rest.drop 4)
  | mark :: rest =>
    let known := [("\"", 0x22), ("\\", 0x5C), ("/", 0x2F), ("b", 0x08), ("f", 0x0C),
      ("n", 0x0A), ("r", 0x0D), ("t", 0x09)]
    (known.find? fun entry => utf8 entry.1 == [mark]).map fun entry => ([entry.2], rest)
  | [] => none

private theorem length_escape? {s char rest : Bytes} (h : escape? s = some (char, rest)) :
    rest.length < s.length := by
  unfold escape? at h
  split at h
  · split at h
    · cases h
    · split at h
      · cases h
      · cases h
        rw [List.length_drop, List.length_cons]
        omega
  · obtain ⟨_, _, heq⟩ := Option.map_eq_some_iff.mp h
    cases heq
    exact Nat.lt_succ_self _
  · cases h

def prepend (front : Bytes) (read : Bytes × Bytes) : Bytes × Bytes := (front ++ read.1, read.2)

def text? (s : Bytes) : Option (Bytes × Bytes) :=
  match s with
  | [] => none
  | b :: rest =>
    if b == quote then some ([], rest)
    else if b == 0x5C then
      match _h : escape? rest with
      | none => none
      | some (char, behind) => (text? behind).map (prepend char)
    else if b < 0x20 then none
    else (text? rest).map (prepend [b])
  termination_by s.length
  decreasing_by
    · have hshorter := length_escape? _h
      simp
      omega
    · simp

/-! ## Values -/

section Sequences

variable {α : Type} (read : Bytes → Option (α × Bytes)) (closing : UInt8)

def sequence : (fuel : Nat) → Bytes → Option (List α × Bytes)
  | 0, _ => none
  | fuel + 1, s =>
    match read s with
    | none => none
    | some (_, []) => none
    | some (item, b :: rest) =>
      if b == closing then some ([item], rest)
      else if b == 0x2C then
        (sequence fuel rest).map fun (items, behind) => (item :: items, behind)
      else none

def items (fuel : Nat) : Bytes → Option (List α × Bytes)
  | [] => none
  | b :: rest => if b == closing then some ([], rest) else sequence read closing fuel (b :: rest)

end Sequences

def member {α : Type} (read : Bytes → Option (α × Bytes)) : Bytes → Option ((Bytes × α) × Bytes)
  | [] => none
  | b :: rest =>
    if b == quote then
      match text? rest with
      | some (key, 0x3A :: behind) =>
        (read behind).map fun (value, behind) => ((key, value), behind)
      | _ => none
    else none

def word (name : String) (t : Tree) (s : Bytes) : Option (Tree × Bytes) :=
  if Bytes.startsWith s (utf8 name) then some (t, s.drop (utf8 name).length) else none

def value : (fuel : Nat) → Bytes → Option (Tree × Bytes)
  | 0, _ => none
  | _ + 1, [] => none
  | fuel + 1, b :: rest =>
    if b == quote then (text? rest).map fun (s, behind) => (.text s, behind)
    else if b == 0x5B then
      (items (value fuel) 0x5D fuel rest).map fun (trees, behind) => (.array trees, behind)
    else if b == 0x7B then
      (items (member (value fuel)) 0x7D fuel rest).map fun (members, behind) =>
        (.object members, behind)
    else if b == 0x6E then word "null" .null (b :: rest)
    else if b == 0x74 then word "true" (.bool true) (b :: rest)
    else if b == 0x66 then word "false" (.bool false) (b :: rest)
    else number (b :: rest)

/-- The tree of a JSON text.  Values are nested less deep than the text is long. -/
def ofBytes? (s : Bytes) : Option Tree :=
  match value s.length s with
  | some (t, []) => some t
  | _ => none

end Scriptlet.Json
