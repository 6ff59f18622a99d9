import Chip8.Machine

/-! # Executing an instruction

What each instruction does to the machine, apart from moving the program counter: that is left to
the caller, who is told how by a `Flow`.  Instructions that write a flag write it after their
result, so the flag wins when both go to VF.  An instruction that fails leaves the machine as it
found it.
-/

namespace Chip8

/-- How an instruction moves the program counter. -/
inductive Flow where
  /-- To the instruction behind this one. -/
  | next
  /-- Over the instruction behind this one. -/
  | skip
  | jump (addr : UInt16)
  deriving DecidableEq, Repr, Inhabited

namespace Flow

/-- Skips the next instruction on a condition. -/
def skipIf (condition : Bool) : Flow :=
  if condition then .skip else .next

/-- The program counter after this movement; addresses wrap around a word. -/
def move (pc : UInt16) : Flow → UInt16
  | .next => pc + 2
  | .skip => pc + 4
  | .jump addr => addr

def description : Flow → String
  | .next => "Next"
  | .skip => "Skip"
  | .jump addr => Instruction.describeAddress "Jump" addr

end Flow

namespace Machine

/-! ## Arithmetic with a flag -/

/-- A byte result and the flag that goes with it. -/
structure Flagged where
  value : UInt8
  flag : Bool
  deriving DecidableEq, Repr, Inhabited

namespace Flagged

/-- Sum modulo 256, and whether it was cut. -/
def add (a b : UInt8) : Flagged :=
  ⟨a + b, decide (255 < a.toNat + b.toNat)⟩

/-- Difference modulo 256, and whether the first is the larger one. -/
def sub (a b : UInt8) : Flagged :=
  ⟨a - b, decide (b < a)⟩

/-- Half, and the bit that fell off. -/
def shiftRight (a : UInt8) : Flagged :=
  ⟨a >>> 1, a &&& 0x01 != 0⟩

/-- Double modulo 256, and the bit that fell off. -/
def shiftLeft (a : UInt8) : Flagged :=
  ⟨a <<< 1, a &&& 0x80 != 0⟩

end Flagged

/-! ## Outcomes of instructions -/

def v (m : Machine) (r : UInt8) : UInt8 :=
  m.registers.get r

/-- Writes a register and goes on. -/
def writing (m : Machine) (x value : UInt8) : Outcome Flow :=
  .done .next { m with registers := m.registers.set x value }

/-- Writes a register, then the flag, and goes on. -/
def writingFlagged (m : Machine) (x : UInt8) (r : Flagged) : Outcome Flow :=
  .done .next { m with registers := (m.registers.set x r.value).setFlag r.flag }

/-- Skips on a condition and changes nothing. -/
def skippingIf (m : Machine) (condition : Bool) : Outcome Flow :=
  .done (.skipIf condition) m

/-- Goes on with another index register. -/
def indexing (m : Machine) (index : IndexRegister) : Outcome Flow :=
  .done .next { m with index }

/-- Goes on with another memory, or stops if there is none. -/
def storing (m : Machine) (memory : Except Stop Memory) : Outcome Flow :=
  match memory with
  | .error cause => .stopped cause m
  | .ok memory => .done .next { m with memory }

/-- Draws the sprite at the index register. -/
def painting (m : Machine) (x y n : UInt8) : Outcome Flow :=
  match m.memory.slice m.index.address n.toNat with
  | .error cause => .stopped cause m
  | .ok sprite =>
    let painted := m.display.paint (m.v x) (m.v y) sprite
    .done .next
      { m with display := painted.1, registers := m.registers.setFlag painted.2, redraw := true }

/-- Remembers the instruction behind this one and jumps. -/
def calling (m : Machine) (addr : UInt16) : Outcome Flow :=
  match m.stack.push (m.pc + 2) m.pc with
  | .error cause => .stopped cause m
  | .ok stack => .done (.jump addr) { m with stack }

def returning (m : Machine) : Outcome Flow :=
  match m.stack.pop m.pc with
  | .error cause => .stopped cause m
  | .ok (addr, stack) => .done (.jump addr) { m with stack }

/-- Writes a random byte under a mask and uses it up. -/
def randomizing (m : Machine) (x kk : UInt8) : Outcome Flow :=
  let drawn := m.random.draw
  .done .next { m with registers := m.registers.set x (kk &&& drawn.1), random := drawn.2 }

/-- Jumps to an address plus V0; a sum that does not fit a word is a fault. -/
def jumpingOffset (m : Machine) (addr : UInt16) : Outcome Flow :=
  if addr.toNat + (m.v 0).toNat < UInt16.size then .done (.jump (addr + (m.v 0).toUInt16)) m
  else .stopped (.fault .overflow) m

/-- Loads V0 up to a register from the index register on. -/
def restoring (m : Machine) (x : UInt8) : Outcome Flow :=
  match m.memory.slice m.index.address (x.toNat + 1) with
  | .error cause => .stopped cause m
  | .ok bytes =>
    match m.registers.overwrite x bytes with
    | .error cause => .stopped (.fault cause) m
    | .ok registers => .done .next { m with registers }

/-- The decimal digits of a byte, hundreds first. -/
def decimalDigits (value : UInt8) : List UInt8 :=
  [value / 100, value / 10 % 10, value % 10]

/-! ## The instruction set -/

/-- Executes an instruction, without moving the program counter and without ticking timers. -/
def execute (m : Machine) : Instruction → Outcome Flow
  | .sys addr => (Outcome.done .next m).logged [.callIgnored addr]
  | .clearScreen => .done .next { m with display := .blank, redraw := true }
  | .ret => m.returning
  | .jump addr => .done (.jump addr) m
  | .call addr => m.calling addr
  | .skipIfByte x kk => m.skippingIf (m.v x == kk)
  | .skipUnlessByte x kk => m.skippingIf (m.v x != kk)
  | .skipIfSame x y => m.skippingIf (m.v x == m.v y)
  | .loadByte x kk => m.writing x kk
  | .addByte x kk => .done .next { m with registers := m.registers.add x kk }
  | .copy x y => m.writing x (m.v y)
  | .or x y => m.writing x (m.v x ||| m.v y)
  | .and x y => m.writing x (m.v x &&& m.v y)
  | .xor x y => m.writing x (m.v x ^^^ m.v y)
  | .add x y => m.writingFlagged x (.add (m.v x) (m.v y))
  | .sub x y => m.writingFlagged x (.sub (m.v x) (m.v y))
  | .shiftRight x _ => m.writingFlagged x (.shiftRight (m.v x))
  | .subReverse x y => m.writingFlagged x (.sub (m.v y) (m.v x))
  | .shiftLeft x _ => m.writingFlagged x (.shiftLeft (m.v x))
  | .skipUnlessSame x y => m.skippingIf (m.v x != m.v y)
  | .loadIndex addr => m.indexing (.pointAt addr)
  | .jumpOffset addr => m.jumpingOffset addr
  | .random x kk => m.randomizing x kk
  | .draw x y n => m.painting x y n
  | .skipIfKey x => m.skippingIf (m.keypad.isDown (m.v x))
  | .skipUnlessKey x => m.skippingIf (!m.keypad.isDown (m.v x))
  | .readDelay x => m.writing x m.delay.count
  | .awaitKey x =>
    (Outcome.done .next { m with state := .waitingForKey x }).logged [.waitingForKey x]
  | .setDelay x => .done .next { m with delay := ⟨m.v x⟩ }
  | .setSound x => .done .next { m with sound := ⟨m.v x⟩ }
  | .addIndex x => m.indexing (m.index.advance (m.v x))
  | .pointGlyph x =>
    m.indexing (.pointAt (Memory.fontBase + (m.v x &&& 0xF).toUInt16 * Memory.glyphLength))
  | .storeDecimal x => m.storing (m.memory.overwrite m.index.address 3 (decimalDigits (m.v x)))
  | .saveRegisters x =>
    m.storing (m.memory.overwrite m.index.address (x.toNat + 1) (m.registers.upTo x))
  | .restoreRegisters x => m.restoring x
  | .unknown word => (Outcome.done .next m).logged [.unknownWord word m.pc]

end Machine

end Chip8
