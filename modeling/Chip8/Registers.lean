import Chip8.Block
import Chip8.Error
import Chip8.Nibble

/-! # Registers

Sixteen byte registers V0 to VF, named by the low half of a byte, and the index register.  VF
doubles as the flag of arithmetic and drawing.  The index register holds a word, of which only the
low twelve bits are an address.
-/

namespace Chip8

/-! ## Byte registers -/

structure Registers where
  cells : Vector UInt8 16
  deriving DecidableEq

namespace Registers

/-- The name of the register that receives flags. -/
def flag : UInt8 := 0xF

def initial : Registers :=
  ⟨Vector.replicate 16 0⟩

def get (v : Registers) (r : UInt8) : UInt8 :=
  v.cells[nibble r]

def set (v : Registers) (r value : UInt8) : Registers :=
  ⟨v.cells.set (nibble r) value⟩

/-- The registers with a constant added to one of them, modulo 256. -/
def add (v : Registers) (r value : UInt8) : Registers :=
  v.set r (v.get r + value)

/-- The registers with the flag written as 1 or 0. -/
def setFlag (v : Registers) (on : Bool) : Registers :=
  v.set flag (if on then 1 else 0)

/-- The values of V0 up to a register, that one included. -/
def upTo (v : Registers) (last : UInt8) : List UInt8 :=
  v.cells.toList.take ((nibble last).val + 1)

/-- The registers with the values of V0 up to a register replaced by a list, which has to have one
    value for each. -/
def overwrite (v : Registers) (last : UInt8) (values : List UInt8) : Except Fault Registers :=
  if values.length = (nibble last).val + 1 then .ok ⟨writeBlock v.cells 0 values⟩
  else .error .lengthMismatch

/-- A written register shows its new value, and every other one its old value. -/
@[simp] theorem get_set (v : Registers) (r s value : UInt8) :
    (v.set r value).get s = if nibble r = nibble s then value else v.get s := by
  simp only [get, set, Fin.getElem_fin, Vector.getElem_set, Fin.val_inj]

end Registers

/-! ## The index register -/

/-- The index register, as the word it holds. -/
structure IndexRegister where
  raw : UInt16
  deriving DecidableEq, Repr, Inhabited

namespace IndexRegister

/-- The bits of a word that make an address. -/
def addressMask : UInt16 := 0x0FFF

/-- The index register at zero. -/
def initial : IndexRegister :=
  ⟨0⟩

/-- The index register pointed at an address; higher bits are dropped. -/
def pointAt (addr : UInt16) : IndexRegister :=
  ⟨addr &&& addressMask⟩

/-- The index register moved forward, around the end of the address space. -/
def advance (i : IndexRegister) (distance : UInt8) : IndexRegister :=
  pointAt (i.raw + distance.toUInt16)

/-- The address in the index register. -/
def address (i : IndexRegister) : Nat :=
  (i.raw &&& addressMask).toNat

end IndexRegister

end Chip8
