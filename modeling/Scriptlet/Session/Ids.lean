import Scriptlet.Text.Bytes

/-!
# Identifiers

A session and its runs are told apart by identifiers of 128 bits, six of which
are fixed.
-/

namespace Scriptlet

structure Ids where
  session : Bytes
  run : Nat → Bytes

namespace Ids

def identifier (n : Nat) : Bytes :=
  let low := n % 0x4000000000000000
  let high := n / 0x4000000000000000
  let variant := 0x8000000000000000 + low
  Bytes.join (utf8 "-")
    [Bytes.hex 8 (high / 0x10000000), Bytes.hex 4 (high / 0x1000),
      utf8 "4" ++ Bytes.hex 3 high, Bytes.hex 4 (variant / 0x1000000000000),
      Bytes.hex 12 variant]

def ofSeed (seed : Nat) : Ids :=
  let stride := 0x9E3779B97F4A7C15F39CC0605CEDC835
  { session := identifier seed, run := fun n => identifier (seed + (n + 1) * stride) }

end Ids

end Scriptlet
