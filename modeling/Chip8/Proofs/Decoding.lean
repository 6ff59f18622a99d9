import Chip8.Proofs.Cursor
import Chip8.Proofs.Encoding
import Mathlib.Tactic.IntervalCases

/-! # Decoding takes back what encoding did

Reading a word and stamping an instruction are inverse to each other on the well-formed
instructions, so instruction words and well-formed instructions are the same thing in two forms.
What is left over, the words outside the table of patterns, is exactly what reads as unknown.

The non-trivial ingredient is that a stamped word gives every field back; the operands then come
out of the decoder in the order in which the encoder took them.
-/

namespace Chip8

namespace Word

/-! ## The table of patterns -/

/-- Four hexadecimal digits, of which the last three may be left to an operand. -/
structure Pattern where
  first : Nat
  second : Option Nat
  third : Option Nat
  fourth : Option Nat

/-- The digits of the word are the pattern's wherever the pattern has one. -/
def Pattern.Fits (p : Pattern) (w : UInt16) : Prop :=
  w.toNat / 0x1000 = p.first ∧ (∀ d ∈ p.second, w.toNat / 0x100 % 0x10 = d)
    ∧ (∀ d ∈ p.third, w.toNat / 0x10 % 0x10 = d) ∧ ∀ d ∈ p.fourth, w.toNat % 0x10 = d

/-- The patterns of the instruction set, in the order of their first digits. -/
def patterns : List Pattern :=
  [⟨0x0, none, none, none⟩, ⟨0x0, some 0x0, some 0xE, some 0x0⟩,
    ⟨0x0, some 0x0, some 0xE, some 0xE⟩, ⟨0x1, none, none, none⟩, ⟨0x2, none, none, none⟩,
    ⟨0x3, none, none, none⟩, ⟨0x4, none, none, none⟩, ⟨0x5, none, none, some 0x0⟩,
    ⟨0x6, none, none, none⟩, ⟨0x7, none, none, none⟩, ⟨0x8, none, none, some 0x0⟩,
    ⟨0x8, none, none, some 0x1⟩, ⟨0x8, none, none, some 0x2⟩, ⟨0x8, none, none, some 0x3⟩,
    ⟨0x8, none, none, some 0x4⟩, ⟨0x8, none, none, some 0x5⟩, ⟨0x8, none, none, some 0x6⟩,
    ⟨0x8, none, none, some 0x7⟩, ⟨0x8, none, none, some 0xE⟩, ⟨0x9, none, none, some 0x0⟩,
    ⟨0xA, none, none, none⟩, ⟨0xB, none, none, none⟩, ⟨0xC, none, none, none⟩,
    ⟨0xD, none, none, none⟩, ⟨0xE, none, some 0x9, some 0xE⟩, ⟨0xE, none, some 0xA, some 0x1⟩,
    ⟨0xF, none, some 0x0, some 0x7⟩, ⟨0xF, none, some 0x0, some 0xA⟩,
    ⟨0xF, none, some 0x1, some 0x5⟩, ⟨0xF, none, some 0x1, some 0x8⟩,
    ⟨0xF, none, some 0x1, some 0xE⟩, ⟨0xF, none, some 0x2, some 0x9⟩,
    ⟨0xF, none, some 0x3, some 0x3⟩, ⟨0xF, none, some 0x5, some 0x5⟩,
    ⟨0xF, none, some 0x6, some 0x5⟩]

example : patterns.length = 35 := rfl

theorem lastByte_eq_iff (w : UInt16) (byte : Nat) :
    lastByte w = byte ↔ w.toNat / 0x10 % 0x10 = byte / 0x10 ∧ w.toNat % 0x10 = byte % 0x10 := by
  simp only [lastByte]
  omega

/-- The table says the same as the conditions on the fields. -/
theorem isPattern_iff (w : UInt16) : IsPattern w ↔ ∃ p ∈ patterns, p.Fits w := by
  have small := family_lt w
  simp only [IsPattern, patterns, Pattern.Fits, List.mem_cons, List.not_mem_nil, or_false,
    exists_eq_or_imp, exists_eq_left, Option.mem_def, Option.some.injEq, forall_eq', family,
    lastDigit, lastByte_eq_iff, Nat.reduceDiv, Nat.reduceMod, reduceCtorEq, false_imp_iff,
    implies_true, and_true, true_and] at small ⊢
  generalize w.toNat / 0x1000 = first at small ⊢
  generalize w.toNat / 0x10 % 0x10 = third
  generalize w.toNat % 0x10 = fourth
  -- at a fixed first digit few rows of the table are left
  interval_cases first <;> simp

/-! ## Fields of a stamped word -/

variable {f last : Nat} {r s k : UInt8} {addr : UInt16}

theorem nnn_ofAddress (low : addr.toNat < 0x1000) : nnn (ofAddress f addr) = addr := by
  apply UInt16.toNat_inj.mp
  rw [toNat_nnn]
  simp only [ofAddress, UInt16.toNat_ofNat']
  omega

theorem ofAddress_zero (addr : UInt16) : ofAddress 0x0 addr = addr := by
  simp [ofAddress]

theorem family_ofRegister (digit : f < 16) (register : r.toNat < 16) (byte : last < 0x100) :
    family (ofRegister f r last) = f :=
  (fields_ofRegister digit register byte).1

theorem x_ofRegister (digit : f < 16) (register : r.toNat < 16) (byte : last < 0x100) :
    x (ofRegister f r last) = r :=
  UInt8.toNat_inj.mp (fields_ofRegister digit register byte).2.1

theorem lastByte_ofRegister (digit : f < 16) (register : r.toNat < 16) (byte : last < 0x100) :
    lastByte (ofRegister f r last) = last :=
  (fields_ofRegister digit register byte).2.2

theorem kk_ofRegister (digit : f < 16) (register : r.toNat < 16) :
    kk (ofRegister f r k.toNat) = k := by
  rw [kk, lastByte_ofRegister digit register k.toNat_lt, UInt8.ofNat_toNat]

theorem family_ofRegisters (digit : f < 16) (first : r.toNat < 16) (second : s.toNat < 16)
    (low : last < 16) : family (ofRegisters f r s last) = f :=
  (fields_ofRegisters digit first second low).1

theorem lastDigit_ofRegisters (digit : f < 16) (first : r.toNat < 16) (second : s.toNat < 16)
    (low : last < 16) : lastDigit (ofRegisters f r s last) = last :=
  (fields_ofRegisters digit first second low).2

theorem x_ofRegisters (first : r.toNat < 16) (second : s.toNat < 16) (low : last < 16) :
    x (ofRegisters f r s last) = r := by
  apply UInt8.toNat_inj.mp
  rw [toNat_x]
  simp only [ofRegisters, UInt16.toNat_ofNat']
  omega

theorem y_ofRegisters (second : s.toNat < 16) (low : last < 16) :
    y (ofRegisters f r s last) = s := by
  apply UInt8.toNat_inj.mp
  rw [toNat_y]
  simp only [ofRegisters, UInt16.toNat_ofNat']
  omega

end Word

namespace Instruction

open Word

variable {i : Instruction} {w : UInt16}

/-- A word outside the patterns is kept whole. -/
theorem decode_of_not_isPattern (outside : ¬ IsPattern w) : decode w = .unknown w := by
  unfold decode
  split
  case h_6 first | h_10 first =>
    split
    next zero => exact absurd (by simp [IsPattern, first, zero]) outside
    next => rfl
  case h_9 first =>
    unfold arithmetic
    split
    case h_10 => rfl
    all_goals
      next last => exact absurd (by simp [IsPattern, first, last]) outside
  case h_15 first =>
    unfold keypad
    split
    case h_3 => rfl
    all_goals
      next last => exact absurd (by simp [IsPattern, first, last]) outside
  case h_16 =>
    have first : family w = 0xF := by
      have small := family_lt w
      grind
    unfold transfer
    split
    case h_10 => rfl
    all_goals
      next last => exact absurd (by simp [IsPattern, first, last]) outside
  -- every word of the other families is in some pattern
  all_goals
    next first => exact absurd (by simp [IsPattern, first]) outside

theorem decode_eq_unknown_iff (w : UInt16) : decode w = .unknown w ↔ ¬ IsPattern w := by
  constructor
  · intro unknown
    have formed := decode_wellFormed w
    rw [unknown] at formed
    exact formed
  · exact decode_of_not_isPattern

theorem decode_encode (formed : i.WellFormed) : decode (encode i) = i := by
  cases i with
  | sys addr =>
    obtain ⟨low, notClear, notReturn⟩ := formed
    simp (disch := first | decide | assumption) only
      [encode, decode, family_ofAddress, nnn_ofAddress]
    rw [ofAddress_zero, if_neg notClear, if_neg notReturn]
  | clearScreen | ret => rfl
  | jump addr | call addr | loadIndex addr | jumpOffset addr =>
    have low : addr.toNat < 0x1000 := formed
    simp (disch := first | decide | assumption) only
      [encode, decode, family_ofAddress, nnn_ofAddress]
  | skipIfByte x kk | skipUnlessByte x kk | loadByte x kk | addByte x kk | random x kk =>
    have register : x.toNat < 16 := formed
    have byte : kk.toNat < 0x100 := kk.toNat_lt
    simp (disch := first | decide | assumption) only
      [encode, decode, family_ofRegister, x_ofRegister, kk_ofRegister]
  | skipIfSame x y | copy x y | or x y | and x y | xor x y | add x y | sub x y | shiftRight x y
  | subReverse x y | shiftLeft x y | skipUnlessSame x y =>
    obtain ⟨first, second⟩ := formed
    simp (disch := first | decide | assumption) only
      [encode, decode, arithmetic, family_ofRegisters, x_ofRegisters, y_ofRegisters,
        lastDigit_ofRegisters, if_pos]
  | draw x y n =>
    obtain ⟨first, second, low⟩ := formed
    simp (disch := first | decide | assumption) only
      [encode, decode, family_ofRegisters, x_ofRegisters, y_ofRegisters, lastDigit_ofRegisters,
        UInt8.ofNat_toNat]
  | skipIfKey x | skipUnlessKey x | readDelay x | awaitKey x | setDelay x | setSound x
  | addIndex x | pointGlyph x | storeDecimal x | saveRegisters x | restoreRegisters x =>
    have register : x.toNat < 16 := formed
    simp (disch := first | decide | assumption) only
      [encode, decode, keypad, transfer, family_ofRegister, x_ofRegister, lastByte_ofRegister]
  | unknown w => exact decode_of_not_isPattern formed

/-! ## Words and instructions -/

/-- Reading and encoding are inverse to each other between the instruction words and the
    well-formed instructions.  So reading loses no digit of a word, not even one that no
    instruction looks at; every operand it gives fits its digits; and exactly the words that fit no
    pattern of the table read as unknown. -/
theorem read_inverts_encode :
    (∀ w, ∃ i, read w = .ok i ∧ i.WellFormed ∧ encode i = w)
      ∧ (∀ i : Instruction, i.WellFormed → read (encode i) = .ok i)
      ∧ (∀ w w', read w = read w' → w = w')
      ∧ ∀ w, read w = .ok (.unknown w) ↔ ¬ ∃ p ∈ Word.patterns, p.Fits w := by
  simp only [read_eq_decode]
  refine ⟨?_, ?_, ?_, ?_⟩
  · intro w
    exact ⟨decode w, rfl, decode_wellFormed w, encode_decode w⟩
  · intro i formed
    rw [decode_encode formed]
  · intro w w' same
    rw [← encode_decode w, ← encode_decode w', Except.ok.inj same]
  · intro w
    rw [← isPattern_iff, ← decode_eq_unknown_iff, Except.ok.injEq]

/-- The second register of a shift counts for nothing but is kept, and a last digit that is not in
    the table makes a word unknown. -/
theorem read_inverts_encode_shiftRight :
    (shiftRight 0xA 0xB).WellFormed ∧ read (encode (shiftRight 0xA 0xB)) = .ok (shiftRight 0xA 0xB)
      ∧ read 0x5121 = .ok (.unknown 0x5121) := by
  obtain ⟨_, reading, _, unknown⟩ := read_inverts_encode
  have formed : (shiftRight 0xA 0xB).WellFormed := by decide
  refine ⟨formed, reading _ formed, (unknown _).mpr ?_⟩
  rw [← isPattern_iff]
  decide

end Instruction

end Chip8
