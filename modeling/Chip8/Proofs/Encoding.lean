import Chip8.Instruction.Encode

/-! # Encoding takes back what decoding did

A word is stamped together again from its own fields, whichever way they are cut, and so every
decoded instruction encodes to the word it came from.  What a word decodes to is moreover well
formed: operands fit their digits, and an unknown word matches no pattern.

The non-trivial ingredient is the triple `ofAddress_fields`, `ofRegister_fields`,
`ofRegisters_fields`; each row of the pattern table is one of the three at a fixed family.
-/

namespace Chip8

namespace Word

/-! ## Fields as numbers -/

theorem family_lt (w : UInt16) : family w < 16 := by
  have bound : w.toNat < 0x10000 := w.toNat_lt
  simp only [family]
  omega

theorem toNat_x (w : UInt16) : (x w).toNat = w.toNat / 0x100 % 0x10 := by
  simp only [x, UInt8.toNat_ofNat']
  omega

theorem toNat_y (w : UInt16) : (y w).toNat = w.toNat / 0x10 % 0x10 := by
  simp only [y, UInt8.toNat_ofNat']
  omega

theorem toNat_kk (w : UInt16) : (kk w).toNat = lastByte w := by
  simp only [kk, lastByte, UInt8.toNat_ofNat']
  omega

theorem toNat_nnn (w : UInt16) : (nnn w).toNat = w.toNat % 0x1000 := by
  simp only [nnn, UInt16.toNat_ofNat']
  omega

theorem toNat_lastDigit (w : UInt16) : (UInt8.ofNat (lastDigit w)).toNat = lastDigit w := by
  simp only [lastDigit, UInt8.toNat_ofNat']
  omega

theorem x_lt (w : UInt16) : (x w).toNat < 16 := by
  rw [toNat_x]
  exact Nat.mod_lt _ (by decide)

theorem y_lt (w : UInt16) : (y w).toNat < 16 := by
  rw [toNat_y]
  exact Nat.mod_lt _ (by decide)

theorem nnn_lt (w : UInt16) : (nnn w).toNat < 0x1000 := by
  rw [toNat_nnn]
  exact Nat.mod_lt _ (by decide)

/-! ## A word from its fields -/

theorem ofAddress_fields (w : UInt16) : ofAddress (family w) (nnn w) = w := by
  have bound : w.toNat < 0x10000 := w.toNat_lt
  apply UInt16.toNat_inj.mp
  simp only [ofAddress, UInt16.toNat_ofNat', toNat_nnn, family]
  omega

theorem ofRegister_fields (w : UInt16) : ofRegister (family w) (x w) (lastByte w) = w := by
  have bound : w.toNat < 0x10000 := w.toNat_lt
  apply UInt16.toNat_inj.mp
  simp only [ofRegister, UInt16.toNat_ofNat', toNat_x, family, lastByte]
  omega

theorem ofRegisters_fields (w : UInt16) :
    ofRegisters (family w) (x w) (y w) (lastDigit w) = w := by
  have bound : w.toNat < 0x10000 := w.toNat_lt
  apply UInt16.toNat_inj.mp
  simp only [ofRegisters, UInt16.toNat_ofNat', toNat_x, toNat_y, family, lastDigit]
  omega

/-! ## Fields of a stamped word -/

theorem family_ofAddress {f : Nat} {addr : UInt16} (digit : f < 16) (low : addr.toNat < 0x1000) :
    family (ofAddress f addr) = f := by
  simp only [ofAddress, family, UInt16.toNat_ofNat']
  omega

theorem fields_ofRegister {f last : Nat} {r : UInt8} (digit : f < 16) (register : r.toNat < 16)
    (byte : last < 0x100) :
    family (ofRegister f r last) = f ∧ (x (ofRegister f r last)).toNat = r.toNat
      ∧ lastByte (ofRegister f r last) = last := by
  rw [toNat_x]
  simp only [ofRegister, family, lastByte, UInt16.toNat_ofNat']
  omega

theorem fields_ofRegisters {f last : Nat} {r s : UInt8} (digit : f < 16) (first : r.toNat < 16)
    (second : s.toNat < 16) (low : last < 16) :
    family (ofRegisters f r s last) = f ∧ lastDigit (ofRegisters f r s last) = last := by
  simp only [ofRegisters, family, lastDigit, UInt16.toNat_ofNat']
  omega

end Word

namespace Instruction

open Word

/-! ## Decoding loses nothing -/

/-- A decoded instruction encodes to the word it was decoded from. -/
theorem encode_decode (w : UInt16) : encode (decode w) = w := by
  have address := ofAddress_fields w
  have register := ofRegister_fields w
  have registers := ofRegisters_fields w
  -- one case per family; it fixes the first digit and, by its own table, the last ones
  unfold decode
  split
  case h_1 first =>
    rw [first] at address
    split
    next cleared => exact cleared.symm
    next =>
      split
      next returned => exact returned.symm
      next => exact address
  case h_2 first | h_3 first | h_11 first | h_12 first =>
    rw [first] at address
    exact address
  case h_4 first | h_5 first | h_7 first | h_8 first | h_13 first =>
    rw [first, ← toNat_kk] at register
    exact register
  case h_6 first | h_10 first =>
    split
    next zero =>
      rw [first, zero] at registers
      exact registers
    next => rfl
  case h_9 first =>
    rw [first] at registers
    unfold arithmetic
    split
    case h_10 => rfl
    all_goals
      next last =>
        rw [last] at registers
        exact registers
  case h_14 first =>
    rw [first, ← toNat_lastDigit] at registers
    exact registers
  case h_15 first =>
    rw [first] at register
    unfold keypad
    split
    case h_3 => rfl
    all_goals
      next last =>
        rw [last] at register
        exact register
  case h_16 =>
    -- the last family of the table is the one that is left
    have first : family w = 0xF := by
      have small := family_lt w
      grind
    rw [first] at register
    unfold transfer
    split
    case h_10 => rfl
    all_goals
      next last =>
        rw [last] at register
        exact register

/-- The operands of a decoded instruction fit their digits, and a word that decodes to no
    instruction matches no pattern. -/
theorem decode_wellFormed (w : UInt16) : (decode w).WellFormed := by
  have xLow := x_lt w
  have yLow := y_lt w
  have nnnLow := nnn_lt w
  unfold decode
  split
  case h_1 first =>
    have word := ofAddress_fields w
    rw [first] at word
    split
    next => trivial
    next notClear =>
      split
      next => trivial
      next notReturn =>
        -- in family 0 the address is the whole word
        refine ⟨nnnLow, ?_, ?_⟩
        · intro same
          rw [same] at word
          exact notClear word.symm
        · intro same
          rw [same] at word
          exact notReturn word.symm
  case h_2 | h_3 | h_11 | h_12 => exact nnnLow
  case h_4 | h_5 | h_7 | h_8 | h_13 => exact xLow
  case h_6 first | h_10 first =>
    split
    next => exact ⟨xLow, yLow⟩
    next digit => simp [WellFormed, IsPattern, first, digit]
  case h_9 first =>
    unfold arithmetic
    split
    case h_10 => simp_all [WellFormed, IsPattern]
    all_goals exact ⟨xLow, yLow⟩
  case h_14 =>
    refine ⟨xLow, yLow, ?_⟩
    rw [toNat_lastDigit]
    exact Nat.mod_lt _ (by decide)
  case h_15 first =>
    unfold keypad
    split
    case h_3 => simp_all [WellFormed, IsPattern]
    all_goals exact xLow
  case h_16 =>
    have first : family w = 0xF := by
      have small := family_lt w
      grind
    unfold transfer
    split
    case h_10 => simp_all [WellFormed, IsPattern]
    all_goals exact xLow

end Instruction

end Chip8
