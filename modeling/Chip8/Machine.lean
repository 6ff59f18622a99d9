import Chip8.CallStack
import Chip8.FrameBuffer
import Chip8.Instruction.Digits
import Chip8.Keypad
import Chip8.Log
import Chip8.Memory
import Chip8.RandomSource
import Chip8.Registers
import Chip8.Timer

/-! # The machine

The whole state of a CHIP-8 machine, a fresh one, and what becomes of an operation on it.  An
operation has an `Outcome`: the value it gives or why it gives none, the machine it leaves, and the
records it logged.  The machine is there in both cases, so that what a failed operation leaves
behind can be talked about; after a fault nothing is meant by it.
-/

namespace Chip8

/-- What the machine is doing. -/
inductive RunState where
  | running
  /-- Suspended until exactly one key is down; its number goes into the register. -/
  | waitingForKey (register : UInt8)
  /-- Stopped for good by a fatal condition. -/
  | halted
  deriving DecidableEq, Repr, Inhabited

def RunState.name : RunState → String
  | .running => "Running"
  | .waitingForKey register => "WaitingForKey(" ++ Numeral.decimal register.toNat ++ ")"
  | .halted => "Halted"

structure Machine where
  registers : Registers
  memory : Memory
  pc : UInt16
  index : IndexRegister
  stack : CallStack
  display : FrameBuffer
  keypad : Keypad
  delay : Timer
  sound : Timer
  state : RunState
  timerMode : TimerMode
  random : RandomSource
  /-- The display was drawn on since it was last handed out. -/
  redraw : Bool

/-- What became of an operation on a machine. -/
structure Outcome (α : Type) where
  result : Except Stop α
  machine : Machine
  log : List Notice

namespace Outcome

variable {α : Type}

def done (value : α) (machine : Machine) : Outcome α :=
  { result := .ok value, machine, log := [] }

def stopped (cause : Stop) (machine : Machine) : Outcome α :=
  { result := .error cause, machine, log := [] }

/-- The outcome with records in front of its log. -/
def logged (notices : List Notice) (o : Outcome α) : Outcome α :=
  { o with log := notices ++ o.log }

end Outcome

namespace Machine

/-! ## Fresh machines -/

/-- A machine that was just switched on, with nothing loaded.  Its display is yet to be shown. -/
def fresh (random : RandomSource) : Machine where
  registers := .initial
  memory := .initial
  pc := Memory.programStart
  index := .initial
  stack := .empty
  display := .blank
  keypad := .initial
  delay := .initial
  sound := .initial
  state := .running
  timerMode := .perCycle
  random := random
  redraw := true

/-- The machine with another way to clock its timers. -/
def setTimerMode (m : Machine) (mode : TimerMode) : Machine :=
  { m with timerMode := mode }

/-- Puts a program into memory, and says so. -/
def loadRom (m : Machine) (rom : List UInt8) : Except LoadError (Machine × List Notice) := do
  let memory ← m.memory.loadRom rom
  return ({ m with memory }, [.romLoaded rom.length])

/-- Puts the program in a file into memory; `read` gives the bytes of a file or says why not. -/
def loadRomFile (m : Machine) (read : String → Except ReadError (List UInt8)) (path : String) :
    Except LoadError (Machine × List Notice) :=
  match read path with
  | .error source => .error (.unreadable path source)
  | .ok rom => m.loadRom rom

/-! ## Questions -/

/-- Whether the machine has not been stopped by a fatal condition. -/
def isRunning (m : Machine) : Bool :=
  decide (m.state ≠ .halted)

def soundActive (m : Machine) : Bool :=
  m.sound.isActive

/-- The display, if it was drawn on since the last time it was handed out. -/
def takeFrame (m : Machine) : Option FrameBuffer × Machine :=
  if m.redraw then (some m.display, { m with redraw := false }) else (none, m)

def fetch (m : Machine) : Except Stop Instruction :=
  match m.memory.readWord m.pc with
  | .error cause => .error (.error cause)
  | .ok word => (Instruction.read word).mapError .fault

/-! ## Timers -/

/-- The machine after one tick of both timers. -/
def tickTimers (m : Machine) : Machine × List Notice :=
  ({ m with delay := m.delay.tick, sound := m.sound.tick },
    if m.sound.expires then [.soundExpired] else [])

/-- The machine after the ticks that belong to a cycle. -/
def cycleTimers (m : Machine) : Machine × List Notice :=
  match m.timerMode with
  | .perCycle => m.tickTimers
  | .realtime => (m, [])

end Machine

end Chip8
