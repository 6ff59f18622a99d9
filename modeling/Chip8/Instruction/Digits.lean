import Chip8.Error
import Chip8.Instruction.Decode

/-! # Reading a word digit by digit

A `Cursor` walks over the four hexadecimal digits of an instruction word and hands out operands of
one, two or three digits.  Reading past the fourth digit, or reading the family anywhere but at the
start, is a fault.  `Instruction.read` decodes through the cursor.
-/

namespace Chip8

/-- `count` digits of a word, from the `first` on; digits are numbered from 1.  Every difference is
    checked, so it is a fault to ask for more than four digits, for a digit in front of the first
    one, or for one behind the last. -/
def Word.digits (word : UInt16) (first count : Nat) : Except Fault Nat := do
  let fits ← Fault.checkedSub 4 count
  let before ← Fault.checkedSub first 1
  let behind ← Fault.checkedSub fits before
  return (word.toNat >>> (4 * behind)) &&& (1 <<< (4 * count) - 1)

/-- A place between the digits of a word: `position` is the number of the digit that comes next. -/
structure Cursor where
  word : UInt16
  position : Nat
  deriving DecidableEq, Repr, Inhabited

abbrev DigitReader := StateT Cursor (Except Fault)

namespace Cursor

def start (word : UInt16) : Cursor :=
  { word, position := 1 }

/-- The next `count` digits, if the cursor is not past the digit `last`. -/
def take (count last : Nat) : DigitReader Nat := fun c =>
  if c.position ≤ last then do
    let value ← Word.digits c.word c.position count
    return (value, { c with position := c.position + count })
  else
    .error .digitsMisread

/-- The first digit, which only a fresh cursor hands out. -/
def family : DigitReader Nat := fun c =>
  if c.position = 1 then take 1 4 c else .error .digitsMisread

/-- One digit, as a register number or a small constant. -/
def register : DigitReader UInt8 :=
  UInt8.ofNat <$> take 1 4

/-- Two digits, as a byte. -/
def byte : DigitReader UInt8 :=
  UInt8.ofNat <$> take 2 3

/-- Three digits, as an address. -/
def address : DigitReader UInt16 :=
  UInt16.ofNat <$> take 3 2

end Cursor

namespace Instruction

open Cursor

def readConstant (make : UInt8 → UInt8 → Instruction) : DigitReader Instruction := do
  let x ← register
  let kk ← byte
  return make x kk

/-- Two registers behind a last digit that has to be zero. -/
def readPair (w : UInt16) (make : UInt8 → UInt8 → Instruction) : DigitReader Instruction := do
  let x ← register
  let y ← register
  let last ← register
  return if last = 0 then make x y else .unknown w

/-- Two registers and the digit that picks the arithmetic. -/
def readArithmetic (w : UInt16) : DigitReader Instruction := do
  let x ← register
  let y ← register
  let last ← register
  return arithmetic w x y last.toNat

/-- A register and the byte that picks one of a family. -/
def readPicked (pick : UInt8 → Nat → Instruction) : DigitReader Instruction := do
  let x ← register
  let last ← byte
  return pick x last.toNat

/-- The instruction of a word, read from a fresh cursor.  A family outside the sixteen digits would
    be a fault. -/
def reader (w : UInt16) : DigitReader Instruction := do
  match ← family with
  | 0x0 =>
    if w = 0x00E0 then return .clearScreen
    else if w = 0x00EE then return .ret
    else .sys <$> address
  | 0x1 => .jump <$> address
  | 0x2 => .call <$> address
  | 0x3 => readConstant .skipIfByte
  | 0x4 => readConstant .skipUnlessByte
  | 0x5 => readPair w .skipIfSame
  | 0x6 => readConstant .loadByte
  | 0x7 => readConstant .addByte
  | 0x8 => readArithmetic w
  | 0x9 => readPair w .skipUnlessSame
  | 0xA => .loadIndex <$> address
  | 0xB => .jumpOffset <$> address
  | 0xC => readConstant .random
  | 0xD => do
    let x ← register
    let y ← register
    let n ← register
    return .draw x y n
  | 0xE => readPicked (keypad w)
  | 0xF => readPicked (transfer w)
  | _ => throw .digitsMisread

/-- The instruction that the digits of a word spell. -/
def read (w : UInt16) : Except Fault Instruction :=
  (reader w).run' (Cursor.start w)

end Instruction

end Chip8
