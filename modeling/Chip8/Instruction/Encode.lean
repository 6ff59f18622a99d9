import Chip8.Instruction.Decode

/-! # Encoding

The assembler's direction: each instruction is stamped into its pattern.  The encoder is total and
makes no checks; `WellFormed` holds of the operands that fit their digits, and of the unknown words
that no pattern covers.  On those instructions encoding and decoding undo each other.
-/

namespace Chip8

namespace Word

/-- The word of a family, two registers and a last digit. -/
def ofRegisters (family : Nat) (x y : UInt8) (last : Nat) : UInt16 :=
  UInt16.ofNat (family * 0x1000 + x.toNat * 0x100 + y.toNat * 0x10 + last)

/-- The word of a family, a register and a last byte. -/
def ofRegister (family : Nat) (x : UInt8) (last : Nat) : UInt16 :=
  UInt16.ofNat (family * 0x1000 + x.toNat * 0x100 + last)

/-- The word of a family and an address. -/
def ofAddress (family : Nat) (addr : UInt16) : UInt16 :=
  UInt16.ofNat (family * 0x1000 + addr.toNat)

/-- The word matches one of the thirty-five patterns. -/
def IsPattern (w : UInt16) : Prop :=
  family w ∈ [0x0, 0x1, 0x2, 0x3, 0x4, 0x6, 0x7, 0xA, 0xB, 0xC, 0xD]
    ∨ family w ∈ [0x5, 0x9] ∧ lastDigit w = 0
    ∨ family w = 0x8 ∧ lastDigit w ∈ [0x0, 0x1, 0x2, 0x3, 0x4, 0x5, 0x6, 0x7, 0xE]
    ∨ family w = 0xE ∧ lastByte w ∈ [0x9E, 0xA1]
    ∨ family w = 0xF ∧ lastByte w ∈ [0x07, 0x0A, 0x15, 0x18, 0x1E, 0x29, 0x33, 0x55, 0x65]

instance (w : UInt16) : Decidable (IsPattern w) :=
  inferInstanceAs (Decidable (_ ∨ _))

end Word

namespace Instruction

def encode : Instruction → UInt16
  | .sys addr => Word.ofAddress 0x0 addr
  | .clearScreen => 0x00E0
  | .ret => 0x00EE
  | .jump addr => Word.ofAddress 0x1 addr
  | .call addr => Word.ofAddress 0x2 addr
  | .skipIfByte x kk => Word.ofRegister 0x3 x kk.toNat
  | .skipUnlessByte x kk => Word.ofRegister 0x4 x kk.toNat
  | .skipIfSame x y => Word.ofRegisters 0x5 x y 0x0
  | .loadByte x kk => Word.ofRegister 0x6 x kk.toNat
  | .addByte x kk => Word.ofRegister 0x7 x kk.toNat
  | .copy x y => Word.ofRegisters 0x8 x y 0x0
  | .or x y => Word.ofRegisters 0x8 x y 0x1
  | .and x y => Word.ofRegisters 0x8 x y 0x2
  | .xor x y => Word.ofRegisters 0x8 x y 0x3
  | .add x y => Word.ofRegisters 0x8 x y 0x4
  | .sub x y => Word.ofRegisters 0x8 x y 0x5
  | .shiftRight x y => Word.ofRegisters 0x8 x y 0x6
  | .subReverse x y => Word.ofRegisters 0x8 x y 0x7
  | .shiftLeft x y => Word.ofRegisters 0x8 x y 0xE
  | .skipUnlessSame x y => Word.ofRegisters 0x9 x y 0x0
  | .loadIndex addr => Word.ofAddress 0xA addr
  | .jumpOffset addr => Word.ofAddress 0xB addr
  | .random x kk => Word.ofRegister 0xC x kk.toNat
  | .draw x y n => Word.ofRegisters 0xD x y n.toNat
  | .skipIfKey x => Word.ofRegister 0xE x 0x9E
  | .skipUnlessKey x => Word.ofRegister 0xE x 0xA1
  | .readDelay x => Word.ofRegister 0xF x 0x07
  | .awaitKey x => Word.ofRegister 0xF x 0x0A
  | .setDelay x => Word.ofRegister 0xF x 0x15
  | .setSound x => Word.ofRegister 0xF x 0x18
  | .addIndex x => Word.ofRegister 0xF x 0x1E
  | .pointGlyph x => Word.ofRegister 0xF x 0x29
  | .storeDecimal x => Word.ofRegister 0xF x 0x33
  | .saveRegisters x => Word.ofRegister 0xF x 0x55
  | .restoreRegisters x => Word.ofRegister 0xF x 0x65
  | .unknown w => w

/-- The operands fit the digits that the pattern gives them, a machine code call is not one of the
    two words with a meaning of their own, and an unknown word matches no pattern. -/
def WellFormed : Instruction → Prop
  | .sys addr => addr.toNat < 0x1000 ∧ addr ≠ 0x0E0 ∧ addr ≠ 0x0EE
  | .clearScreen | .ret => True
  | .jump addr | .call addr | .loadIndex addr | .jumpOffset addr => addr.toNat < 0x1000
  | .skipIfByte x _ | .skipUnlessByte x _ | .loadByte x _ | .addByte x _ | .random x _ =>
    x.toNat < 16
  | .skipIfSame x y | .copy x y | .or x y | .and x y | .xor x y | .add x y | .sub x y
  | .shiftRight x y | .subReverse x y | .shiftLeft x y | .skipUnlessSame x y =>
    x.toNat < 16 ∧ y.toNat < 16
  | .draw x y n => x.toNat < 16 ∧ y.toNat < 16 ∧ n.toNat < 16
  | .skipIfKey x | .skipUnlessKey x | .readDelay x | .awaitKey x | .setDelay x | .setSound x
  | .addIndex x | .pointGlyph x | .storeDecimal x | .saveRegisters x | .restoreRegisters x =>
    x.toNat < 16
  | .unknown w => ¬ Word.IsPattern w

instance (i : Instruction) : Decidable i.WellFormed := by
  cases i <;> unfold WellFormed <;> infer_instance

end Instruction

end Chip8
