/-! # Low halves of bytes

Registers and keys are named by bytes, and there are sixteen of each.  Only the low four bits of a
name count, so every byte names one of them.
-/

namespace Chip8

/-- The low four bits of a byte, as an index below sixteen. -/
def nibble (b : UInt8) : Fin 16 :=
  ⟨b.toNat % 16, Nat.mod_lt _ (by decide)⟩

/-- An index below sixteen, as a byte. -/
def ofNibble (k : Fin 16) : UInt8 :=
  UInt8.ofNat k.val

@[simp] theorem nibble_ofNibble (k : Fin 16) : nibble (ofNibble k) = k := by
  revert k; decide

end Chip8
