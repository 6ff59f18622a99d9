import Chip8.Block
import Chip8.Error

/-! # Memory

A flat space of 4096 bytes.

    0x000 - 0x04F  glyphs of the sixteen hexadecimal digits, five bytes each
    0x050 - 0x1FF  kept free
    0x200 - 0xFFF  the program and its working memory

Addresses and lengths are natural numbers below `2 ^ 64`.  An access is in bounds when its whole
span is; a span whose end does not fit 64 bits is a fault, even when it is empty.
-/

namespace Chip8

namespace Memory

abbrev size : Nat := 4096

/-- Where programs are placed, and where they start. -/
def programStart : UInt16 := 0x200

def fontBase : UInt16 := 0x000

/-- The number of bytes, and so of rows, of a glyph. -/
def glyphLength : UInt16 := 5

/-- The largest program. -/
def maxRomSize : Nat := size - programStart.toNat

/-- The glyphs of the sixteen hexadecimal digits. -/
def font : List UInt8 :=
  [0xF0, 0x90, 0x90, 0x90, 0xF0,
   0x20, 0x60, 0x20, 0x20, 0x70,
   0xF0, 0x10, 0xF0, 0x80, 0xF0,
   0xF0, 0x10, 0xF0, 0x10, 0xF0,
   0x90, 0x90, 0xF0, 0x10, 0x10,
   0xF0, 0x80, 0xF0, 0x10, 0xF0,
   0xF0, 0x80, 0xF0, 0x90, 0xF0,
   0xF0, 0x10, 0x20, 0x40, 0x40,
   0xF0, 0x90, 0xF0, 0x90, 0xF0,
   0xF0, 0x90, 0xF0, 0x10, 0xF0,
   0xF0, 0x90, 0xF0, 0x90, 0x90,
   0xE0, 0x90, 0xE0, 0x90, 0xE0,
   0xF0, 0x80, 0x80, 0x80, 0xF0,
   0xE0, 0x90, 0x90, 0x90, 0xE0,
   0xF0, 0x80, 0xF0, 0x80, 0xF0,
   0xF0, 0x80, 0xF0, 0x80, 0x80]

end Memory

structure Memory where
  cells : Vector UInt8 Memory.size
  deriving DecidableEq

namespace Memory

/-! ## Single cells -/

/-- The memory with a list of bytes from an address on; bytes past the last cell are dropped. -/
def store (m : Memory) (addr : Nat) (bytes : List UInt8) : Memory :=
  ⟨writeBlock m.cells addr bytes⟩

/-- A fresh memory: the glyphs, and zeros everywhere else. -/
def initial : Memory :=
  (⟨Vector.replicate size 0⟩ : Memory).store fontBase.toNat font

def get (m : Memory) (addr : Nat) : Except MachineError UInt8 :=
  if h : addr < size then .ok m.cells[addr] else .error (.memoryOutOfBounds addr)

/-- The memory with one byte replaced. -/
def set (m : Memory) (addr : Nat) (value : UInt8) : Except MachineError Memory :=
  if h : addr < size then .ok ⟨m.cells.set addr value h⟩ else .error (.memoryOutOfBounds addr)

/-- The word at an address, high byte first. -/
def readWord (m : Memory) (addr : UInt16) : Except MachineError UInt16 := do
  let high ← m.get addr.toNat
  let low ← m.get (addr.toNat + 1)
  return (high.toUInt16 <<< 8) ||| low.toUInt16

/-! ## Spans -/

/-- Whether the span of `length` cells from `addr` on is in bounds.  A span that is not is reported
    at the address of its last cell. -/
def checkSpan (addr length : Nat) : Except Stop Unit :=
  -- the end is computed first, so even an empty span can fault
  if UInt64.size ≤ addr + length then .error (.fault .overflow)
  else if addr + length ≤ size then .ok ()
  else .error (.error (.memoryOutOfBounds (addr + length - 1)))

def slice (m : Memory) (addr length : Nat) : Except Stop (List UInt8) := do
  checkSpan addr length
  return (List.range' addr length).map fun a => m.cells[a]?.getD 0

/-- The memory with every byte of a span replaced by one value. -/
def fill (m : Memory) (addr length : Nat) (value : UInt8) : Except Stop Memory := do
  checkSpan addr length
  return m.store addr (List.replicate length value)

/-- The memory with the bytes of a span replaced by a list, which has to be as long as the span. -/
def overwrite (m : Memory) (addr length : Nat) (bytes : List UInt8) : Except Stop Memory := do
  checkSpan addr length
  if bytes.length = length then return m.store addr bytes
  else throw (.fault .lengthMismatch)

/-! ## Programs -/

/-- The memory with a program image at the start of the program area.  Cells behind the image keep
    what they hold. -/
def loadRom (m : Memory) (rom : List UInt8) : Except LoadError Memory :=
  if maxRomSize < rom.length then .error (.romTooLarge rom.length maxRomSize)
  else .ok (m.store programStart.toNat rom)

end Memory

end Chip8
