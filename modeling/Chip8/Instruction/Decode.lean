import Chip8.Instruction

/-! # Decoding

An instruction word has four hexadecimal digits.  The first one names a family; inside a family the
last digit or the last byte may pick the instruction, and whatever is left is operands.  `decode`
is total: a word that matches no pattern is kept whole as `unknown`.
-/

namespace Chip8

/-! ## Fields of an instruction word -/

namespace Word

def family (w : UInt16) : Nat :=
  w.toNat / 0x1000

/-- The second digit, which names a register. -/
def x (w : UInt16) : UInt8 :=
  UInt8.ofNat (w.toNat / 0x100 % 0x10)

/-- The third digit, which names a register. -/
def y (w : UInt16) : UInt8 :=
  UInt8.ofNat (w.toNat / 0x10 % 0x10)

def lastDigit (w : UInt16) : Nat :=
  w.toNat % 0x10

def lastByte (w : UInt16) : Nat :=
  w.toNat % 0x100

/-- The last two digits, as a constant. -/
def kk (w : UInt16) : UInt8 :=
  UInt8.ofNat (lastByte w)

/-- The last three digits, as an address. -/
def nnn (w : UInt16) : UInt16 :=
  UInt16.ofNat (w.toNat % 0x1000)

end Word

/-! ## The pattern table -/

namespace Instruction

/-- The arithmetic that a last digit picks. -/
def arithmetic (w : UInt16) (x y : UInt8) : Nat → Instruction
  | 0x0 => .copy x y
  | 0x1 => .or x y
  | 0x2 => .and x y
  | 0x3 => .xor x y
  | 0x4 => .add x y
  | 0x5 => .sub x y
  | 0x6 => .shiftRight x y
  | 0x7 => .subReverse x y
  | 0xE => .shiftLeft x y
  | _ => .unknown w

/-- The question about the keypad that a last byte picks. -/
def keypad (w : UInt16) (x : UInt8) : Nat → Instruction
  | 0x9E => .skipIfKey x
  | 0xA1 => .skipUnlessKey x
  | _ => .unknown w

/-- The instruction about timers, keys, the index register or a block that a last byte picks. -/
def transfer (w : UInt16) (x : UInt8) : Nat → Instruction
  | 0x07 => .readDelay x
  | 0x0A => .awaitKey x
  | 0x15 => .setDelay x
  | 0x18 => .setSound x
  | 0x1E => .addIndex x
  | 0x29 => .pointGlyph x
  | 0x33 => .storeDecimal x
  | 0x55 => .saveRegisters x
  | 0x65 => .restoreRegisters x
  | _ => .unknown w

/-- The instruction that a word stands for. -/
def decode (w : UInt16) : Instruction :=
  match Word.family w with
  | 0x0 => if w = 0x00E0 then .clearScreen else if w = 0x00EE then .ret else .sys (Word.nnn w)
  | 0x1 => .jump (Word.nnn w)
  | 0x2 => .call (Word.nnn w)
  | 0x3 => .skipIfByte (Word.x w) (Word.kk w)
  | 0x4 => .skipUnlessByte (Word.x w) (Word.kk w)
  | 0x5 => if Word.lastDigit w = 0 then .skipIfSame (Word.x w) (Word.y w) else .unknown w
  | 0x6 => .loadByte (Word.x w) (Word.kk w)
  | 0x7 => .addByte (Word.x w) (Word.kk w)
  | 0x8 => arithmetic w (Word.x w) (Word.y w) (Word.lastDigit w)
  | 0x9 => if Word.lastDigit w = 0 then .skipUnlessSame (Word.x w) (Word.y w) else .unknown w
  | 0xA => .loadIndex (Word.nnn w)
  | 0xB => .jumpOffset (Word.nnn w)
  | 0xC => .random (Word.x w) (Word.kk w)
  | 0xD => .draw (Word.x w) (Word.y w) (UInt8.ofNat (Word.lastDigit w))
  | 0xE => keypad w (Word.x w) (Word.lastByte w)
  | _ => transfer w (Word.x w) (Word.lastByte w)

end Instruction

end Chip8
