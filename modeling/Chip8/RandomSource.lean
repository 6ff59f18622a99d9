/-! # Random bytes

A source of random bytes is an endless stream of them together with the number that were drawn.
-/

namespace Chip8

/-- A stream of bytes and how many of them are used up. -/
structure RandomSource where
  byte : Nat → UInt8
  drawn : Nat

namespace RandomSource

/-- The next byte, and the source behind it. -/
def draw (r : RandomSource) : UInt8 × RandomSource :=
  (r.byte r.drawn, { r with drawn := r.drawn + 1 })

/-- The low bytes of `start`, `start + step`, `start + 2 * step` and so on, modulo `2 ^ 64`. -/
def arithmetic (start step : UInt64) : RandomSource where
  byte n := (start + UInt64.ofNat n * step).toUInt8
  drawn := 0

/-- A stream that scatters a seed: each place is multiplied and folded until its bits depend on all
    bits of the seed. -/
def scattered (seed : UInt64) : RandomSource where
  byte n :=
    let a := seed + UInt64.ofNat (n + 1) * 0x9E3779B97F4A7C15
    let b := (a ^^^ (a >>> 30)) * 0xBF58476D1CE4E5B9
    let c := (b ^^^ (b >>> 27)) * 0x94D049BB133111EB
    (c ^^^ (c >>> 31)).toUInt8
  drawn := 0

end RandomSource

end Chip8
