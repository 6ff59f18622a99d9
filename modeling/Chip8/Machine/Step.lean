import Chip8.Machine.Execute

/-! # Running a machine

One cycle refreshes the keypad and then either executes the instruction at the program counter or
keeps waiting for a key.  A fatal condition halts the machine and is reported once; after that every
step answers that the machine is halted, and changes nothing.  A run is a number of steps that
ends early when the machine stops.
-/

namespace Chip8

/-- What a step did. -/
inductive Step where
  /-- An instruction of the instruction set was executed. -/
  | executed (ins : Instruction)
  /-- A word outside the instruction set was passed over. -/
  | unknown (word : UInt16)
  | waiting
  /-- The key that the machine waited for came. -/
  | keyReceived (key : UInt8)
  | halted
  deriving DecidableEq, Repr, Inhabited

namespace Step

/-- What a step that executed an instruction did. -/
def ofInstruction : Instruction → Step
  | .unknown word => .unknown word
  | ins => .executed ins

def description : Step → String
  | .executed ins => "Executed(" ++ ins.description ++ ")"
  | .unknown word => Instruction.describeAddress "Unknown" word
  | .waiting => "Waiting"
  | .keyReceived key => Instruction.describeBytes "KeyReceived" [key]
  | .halted => "Halted"

end Step

namespace Machine

/-! ## Cycles -/

/-- Ends a cycle: the timers tick if the cycle clocks them. -/
def finishing (m : Machine) (step : Step) : Outcome Step :=
  let ticked := m.cycleTimers
  { result := .ok step, machine := ticked.1, log := ticked.2 }

def awaitCycle (m : Machine) (register : UInt8) : Outcome Step :=
  match m.keypad.single with
  | none => m.finishing .waiting
  | some k =>
    let key := ofNibble k
    let resumed := { m with registers := m.registers.set register key, state := .running }
    (resumed.finishing (.keyReceived key)).logged [.keyReceived key register]

/-- Executes an instruction and moves the program counter as it asks for. -/
def executeCycle (m : Machine) (ins : Instruction) : Outcome Step :=
  let executed := m.execute ins
  match executed.result with
  | .error cause => { result := .error cause, machine := executed.machine, log := executed.log }
  | .ok flow =>
    let moved := { executed.machine with pc := flow.move executed.machine.pc }
    (moved.finishing (.ofInstruction ins)).logged executed.log

/-- A cycle of a machine that runs: fetch, decode and execute. -/
def fetchCycle (m : Machine) : Outcome Step :=
  -- the last cell alone is no whole instruction
  if m.pc.toNat + 1 ≥ Memory.size then
    .stopped (.error (.pcOutOfRange m.pc)) m
  else
    match m.fetch with
    | .error cause => .stopped cause m
    | .ok ins => (m.executeCycle ins).logged [.executing m.pc ins]

/-- One cycle, with the keypad refreshed already. -/
def cycle (m : Machine) : Outcome Step :=
  match m.state with
  | .waitingForKey register => m.awaitCycle register
  | _ => m.fetchCycle

/-! ## Steps and runs -/

/-- Halts the machine of an outcome that is a fatal condition, and says so. -/
def haltOnError (o : Outcome Step) : Outcome Step :=
  match o.result with
  | .error (.error cause) =>
    { result := .error (.error cause), machine := { o.machine with state := .halted },
      log := o.log ++ [.halting o.machine.pc cause] }
  -- a fault is not the program's doing
  | _ => o

def step (m : Machine) (keys : KeySource) : Outcome Step :=
  if m.state = .halted then .done .halted m
  else haltOnError { m with keypad := m.keypad.refresh keys }.cycle

/-- `cycles` steps, or fewer if the machine stops; `earlier` holds the records so far, newest
    first. -/
def runFrom (m : Machine) (keys : KeySource) (earlier : List Notice) : Nat → Outcome Unit
  | 0 => { result := .ok (), machine := m, log := earlier.reverse }
  | cycles + 1 =>
    let stepped := m.step keys
    let log := stepped.log.reverse ++ earlier
    match stepped.result with
    | .error cause => { result := .error cause, machine := stepped.machine, log := log.reverse }
    -- the machine was halted before this step, which counts for nothing
    | .ok .halted =>
      { result := .ok (), machine := stepped.machine, log := (.machineHalted :: log).reverse }
    | .ok _ => runFrom stepped.machine keys log cycles

/-- Steps until `cycles` have run or the machine stops. -/
def run (m : Machine) (cycles : Nat) (keys : KeySource) : Outcome Unit :=
  m.runFrom keys [] cycles

end Machine

end Chip8
