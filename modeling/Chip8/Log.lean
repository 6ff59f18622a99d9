import Chip8.Error
import Chip8.Instruction.Text
import Chip8.Timer

/-! # The log

What the machine and its host have to say while they run.  A `Notice` is one record: it knows what
happened, and its level, its target and its text follow from that.  The target names the part that
speaks, and records are picked by level and target.
-/

namespace Chip8

/-- How important a record is, from the most to the least. -/
inductive Level where
  | error
  | warn
  | info
  | debug
  | trace
  deriving DecidableEq, Repr, Inhabited

namespace Level

/-- The place of a level in the order of importance; smaller is more important. -/
def rank : Level → Nat
  | .error => 1
  | .warn => 2
  | .info => 3
  | .debug => 4
  | .trace => 5

def name : Level → String
  | .error => "ERROR"
  | .warn => "WARN"
  | .info => "INFO"
  | .debug => "DEBUG"
  | .trace => "TRACE"

/-- The name of a level, filled up to five columns. -/
def column (l : Level) : String :=
  match l with
  | .warn => "WARN "
  | .info => "INFO "
  | _ => l.name

end Level

/-- One record of the log. -/
inductive Notice where
  /-- A program of so many bytes was placed. -/
  | romLoaded (size : Nat)
  /-- An instruction is about to be executed. -/
  | executing (pc : UInt16) (ins : Instruction)
  /-- A machine code call was passed over. -/
  | callIgnored (addr : UInt16)
  /-- A word outside the instruction set was passed over. -/
  | unknownWord (word pc : UInt16)
  /-- The machine waits for a key, which will go into a register. -/
  | waitingForKey (register : UInt8)
  /-- The key that the machine waited for. -/
  | keyReceived (key register : UInt8)
  | soundExpired
  /-- A fatal condition stopped the machine. -/
  | halting (pc : UInt16) (cause : MachineError)
  /-- A run met a machine that had stopped. -/
  | machineHalted
  /-- The host starts to run the program. -/
  | running (cyclesPerFrame : Nat) (mode : TimerMode)
  /-- The program left memory, which ends it. -/
  | ranOff
  deriving DecidableEq, Repr, Inhabited

namespace Notice

def level : Notice → Level
  | .halting .. => .error
  | .unknownWord .. => .warn
  | .romLoaded _ | .machineHalted | .running .. | .ranOff => .info
  | .callIgnored _ | .waitingForKey _ | .keyReceived .. | .soundExpired => .debug
  | .executing .. => .trace

/-- The part of the program that a record comes from. -/
def target : Notice → String
  | .romLoaded _ => "emuchip::memory"
  | .running .. | .ranOff => "emuchip"
  | _ => "emuchip::emulator"

def text : Notice → String
  | .romLoaded size => "Loaded ROM [size: " ++ Numeral.decimal size ++ "]"
  | .executing pc ins => Numeral.hex 3 pc.toNat ++ ": " ++ ins.mnemonic
  | .callIgnored addr =>
    "Ignoring machine code call [addr: " ++ Numeral.address addr.toNat ++ "]"
  | .unknownWord word pc =>
    "Unknown opcode [" ++ Numeral.marked 4 word.toNat ++ "] at " ++ Numeral.address pc.toNat
  | .waitingForKey register =>
    "Waiting for key [register: " ++ Instruction.registerName register ++ "]"
  | .keyReceived key register =>
    "Key received [key: " ++ Numeral.upperHex key.toNat ++ ", register: "
      ++ Instruction.registerName register ++ "]"
  | .soundExpired => "Sound timer expired"
  | .halting pc cause => "Halting [pc: " ++ Numeral.address pc.toNat ++ "]: " ++ cause.message
  | .machineHalted => "Machine halted"
  | .running cycles mode =>
    "Running [cycles/frame: " ++ Numeral.decimal cycles ++ ", timers: " ++ mode.name ++ "]"
  | .ranOff => "Program ran off the end of memory"

/-- A record as one line, with its level filled up so that targets line up. -/
def alignedLine (n : Notice) : String :=
  n.level.column ++ " " ++ n.target ++ " " ++ n.text

end Notice

end Chip8
