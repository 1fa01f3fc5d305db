import Scriptlet.Text.Bytes

/-!
# Characters in byte strings

A byte string is read as a sequence of runes: the well-formed UTF-8
characters, and single bytes where no such character starts.
-/

namespace Scriptlet

/-- A character with its encoding, or one byte that starts no character. -/
inductive Rune where
  | char (code : Nat) (encoded : Bytes)
  | stray (byte : UInt8)
  deriving DecidableEq, Repr

namespace Rune

def bytes : Rune → Bytes
  | char _ encoded => encoded
  | stray byte => [byte]

/-- The replacement character stands in for a stray byte. -/
def code : Rune → Nat
  | char code _ => code
  | stray _ => 0xFFFD

def encode (code : Nat) : Bytes :=
  if code < 0x80 then [UInt8.ofNat code]
  else if code < 0x800 then
    [UInt8.ofNat (0xC0 + code / 64), UInt8.ofNat (0x80 + code % 64)]
  else if code < 0x10000 then
    [UInt8.ofNat (0xE0 + code / 4096), UInt8.ofNat (0x80 + code / 64 % 64),
      UInt8.ofNat (0x80 + code % 64)]
  else
    [UInt8.ofNat (0xF0 + code / 262144), UInt8.ofNat (0x80 + code / 4096 % 64),
      UInt8.ofNat (0x80 + code / 64 % 64), UInt8.ofNat (0x80 + code % 64)]

def replacement : Bytes := [0xEF, 0xBF, 0xBD]

end Rune

namespace Utf8

def isContinuation (b : UInt8) : Bool := 0x80 ≤ b && b ≤ 0xBF

/--
The range of the second byte after a three or four byte lead.  It excludes
overlong forms, surrogates and code points above `0x10FFFF`.
-/
def secondOk (lead second : UInt8) : Bool :=
  if lead == 0xE0 then 0xA0 ≤ second && second ≤ 0xBF
  else if lead == 0xED then 0x80 ≤ second && second ≤ 0x9F
  else if lead == 0xF0 then 0x90 ≤ second && second ≤ 0xBF
  else if lead == 0xF4 then 0x80 ≤ second && second ≤ 0x8F
  else isContinuation second

def tail (b : UInt8) : Nat := b.toNat % 64

def first (b : UInt8) (rest : Bytes) : Rune :=
  if b < 0x80 then .char b.toNat [b]
  else if 0xC2 ≤ b && b ≤ 0xDF then
    match rest with
    | c :: _ =>
      if isContinuation c then .char (b.toNat % 32 * 64 + tail c) [b, c]
      else .stray b
    | [] => .stray b
  else if 0xE0 ≤ b && b ≤ 0xEF then
    match rest with
    | c :: d :: _ =>
      if secondOk b c && isContinuation d then
        .char (b.toNat % 16 * 4096 + tail c * 64 + tail d) [b, c, d]
      else .stray b
    | _ => .stray b
  else if 0xF0 ≤ b && b ≤ 0xF4 then
    match rest with
    | c :: d :: e :: _ =>
      if secondOk b c && isContinuation d && isContinuation e then
        .char (b.toNat % 8 * 262144 + tail c * 4096 + tail d * 64 + tail e)
          [b, c, d, e]
      else .stray b
    | _ => .stray b
  else .stray b

theorem bytes_first (b : UInt8) (rest : Bytes) :
    ∃ more, (first b rest).bytes = b :: more ∧ more <+: rest := by
  unfold first
  repeat' split
  all_goals simp [Rune.bytes, List.prefix_iff_eq_append]

def runesFrom (done : List Rune) (s : Bytes) : List Rune :=
  match s with
  | [] => done.reverse
  | b :: rest =>
    runesFrom (first b rest :: done) (rest.drop ((first b rest).bytes.length - 1))
  termination_by s.length
  decreasing_by simp only [List.length_drop, List.length_cons]; omega

def runes (s : Bytes) : List Rune := runesFrom [] s

def isValid (s : Bytes) : Bool :=
  (runes s).all fun
    | .char _ _ => true
    | .stray _ => false

/-- Every stray byte becomes the replacement character. -/
def repair (s : Bytes) : Bytes :=
  (runes s).flatMap fun
    | .char _ encoded => encoded
    | .stray _ => Rune.replacement

end Utf8

end Scriptlet
