import Chip8.Machine.Step
import Chip8.Proofs.Cursor
import Chip8.Proofs.Encoding
import Chip8.Proofs.Execution

/-! # What one step can do

`Machine.Stepped` inverts a step of the machine in any state: halted, waiting or running.  A running
machine either executes the instruction that the word at its program counter decodes to, or ends
with a fatal condition and is halted, or runs into a fault.
-/

namespace Chip8

theorem Step.ofInstruction_eq_executed {i ins : Instruction}
    (same : Step.ofInstruction i = .executed ins) : i = ins := by
  cases i with
  | unknown => cases same
  | _ =>
    cases same
    rfl

namespace Machine

/-- The machine at the start of a cycle, with the keypad as the keys are now. -/
def refreshed (m : Machine) (keys : KeySource) : Machine :=
  { m with keypad := m.keypad.refresh keys }

def word (m : Machine) : UInt16 :=
  m.memory.word m.pc.toNat

def moved (m : Machine) (flow : Flow) : Machine :=
  { m with pc := flow.move m.pc }

/-- The machine with the key that it waited for in a register. -/
def resumed (m : Machine) (register key : UInt8) : Machine :=
  { m with registers := m.registers.set register key, state := .running }

/-- The outcomes of a step: what it answers, and the machine it leaves. -/
inductive Stepped (m : Machine) (keys : KeySource) : Except Stop Step → Machine → Prop
  | halted (halted : m.state = .halted) : m.Stepped keys (.ok .halted) m
  | waiting {x} (waits : m.state = .waitingForKey x)
      (undecided : (m.refreshed keys).keypad.single = none) :
      m.Stepped keys (.ok .waiting) (m.refreshed keys).cycleTimers.1
  | received {x k} (waits : m.state = .waitingForKey x)
      (pressed : (m.refreshed keys).keypad.single = some k) :
      m.Stepped keys (.ok (.keyReceived (ofNibble k)))
        ((m.refreshed keys).resumed x (ofNibble k)).cycleTimers.1
  | executed {flow} (runs : m.state = .running) (inside : m.pc.toNat + 1 < Memory.size)
      (done : ((m.refreshed keys).execute (Instruction.decode m.word)).result = .ok flow) :
      m.Stepped keys (.ok (.ofInstruction (Instruction.decode m.word)))
        (((m.refreshed keys).execute (Instruction.decode m.word)).machine.moved flow).cycleTimers.1
  | ranOff (runs : m.state = .running) (outside : Memory.size ≤ m.pc.toNat + 1) :
      m.Stepped keys (.error (.error (.pcOutOfRange m.pc)))
        { m.refreshed keys with state := .halted }
  | failed {cause} (runs : m.state = .running) (inside : m.pc.toNat + 1 < Memory.size)
      (stops : m.Stops (Instruction.decode m.word) (.error cause)) :
      m.Stepped keys (.error (.error cause)) { m.refreshed keys with state := .halted }
  | faulted {cause} (runs : m.state = .running) (inside : m.pc.toNat + 1 < Memory.size)
      (stops : m.Stops (Instruction.decode m.word) (.fault cause)) :
      m.Stepped keys (.error (.fault cause)) (m.refreshed keys)

variable {m : Machine} {keys : KeySource} {ins : Instruction} {cause : Stop} {flow : Flow}

theorem stops_refreshed : (m.refreshed keys).Stops ins cause ↔ m.Stops ins cause := by
  constructor
  · intro stops
    exact stops.transfer rfl rfl rfl rfl
  · intro stops
    exact stops.transfer rfl rfl rfl rfl

/-- What a word decodes to runs into no fault while the stack is within its capacity. -/
theorem decoded_not_fault {w : UInt16} {f : Fault} (bounded : m.stack.depth ≤ CallStack.capacity) :
    ¬ m.Stops (Instruction.decode w) (.fault f) := by
  intro stops
  have formed := Instruction.decode_wellFormed w
  generalize Instruction.decode w = i at stops formed
  -- the stack rules out two of the faults, and operands that fit their digits the other three
  cases stops with
  | callBeyond beyond => exact absurd bounded (Nat.not_le_of_lt beyond)
  | retBeyond beyond => exact absurd bounded (Nat.not_le_of_lt beyond)
  | @jumpOffset addr large =>
    have low : addr.toNat < 0x1000 := formed
    have byte : (m.v 0).toNat < 256 := (m.v 0).toNat_lt
    rw [UInt16.size] at large
    omega
  | saveBeyond named => exact absurd formed (Nat.not_lt_of_le named)
  | restoreBeyond named => exact absurd formed (Nat.not_lt_of_le named)

theorem fetch_inside (inside : m.pc.toNat + 1 < Memory.size) :
    m.fetch = .ok (Instruction.decode m.word) := by
  rw [fetch, Memory.readWord_inside _ inside]
  dsimp only
  rw [Instruction.read_eq_decode]
  rfl

theorem inside_of_fetch (fetched : m.fetch = .ok ins) :
    m.pc.toNat + 1 < Memory.size ∧ Instruction.decode m.word = ins := by
  have inside : m.pc.toNat + 1 < Memory.size := by
    apply Nat.lt_of_not_le
    intro outside
    have beyond : ∃ cause, m.memory.readWord m.pc = .error cause := by
      have low : m.memory.get (m.pc.toNat + 1) = .error (.memoryOutOfBounds (m.pc.toNat + 1)) :=
        dif_neg (Nat.not_lt_of_le outside)
      rw [Memory.readWord, low]
      cases m.memory.get m.pc.toNat <;> exact ⟨_, rfl⟩
    obtain ⟨cause, failed⟩ := beyond
    rw [fetch, failed] at fetched
    cases fetched
  rw [fetch_inside inside] at fetched
  exact ⟨inside, Except.ok.inj fetched⟩

theorem cycleTimers_machine (m : Machine) :
    ∃ delay sound, m.cycleTimers.1 = { m with delay, sound } := by
  unfold cycleTimers
  split
  next => exact ⟨_, _, rfl⟩
  next => exact ⟨m.delay, m.sound, rfl⟩

theorem cycleTimers_stack (m : Machine) : m.cycleTimers.1.stack = m.stack := by
  obtain ⟨_, _, ticked⟩ := m.cycleTimers_machine
  rw [ticked]

/-! ## A step in each state -/

theorem step_of_halted (halted : m.state = .halted) : m.step keys = .done .halted m := by
  rw [step, if_pos halted]

theorem step_of_waiting {x : UInt8} (waits : m.state = .waitingForKey x) :
    m.step keys = haltOnError ((m.refreshed keys).awaitCycle x) := by
  have awake : m.state ≠ .halted := by simp [waits]
  have waits' : (m.refreshed keys).state = .waitingForKey x := waits
  rw [step, if_neg awake]
  change haltOnError (m.refreshed keys).cycle = _
  rw [cycle, waits']

theorem step_of_running (runs : m.state = .running) :
    m.step keys = haltOnError (m.refreshed keys).fetchCycle := by
  have awake : m.state ≠ .halted := by simp [runs]
  have runs' : (m.refreshed keys).state = .running := runs
  rw [step, if_neg awake]
  change haltOnError (m.refreshed keys).cycle = _
  rw [cycle, runs']

theorem fetchCycle_outside (outside : Memory.size ≤ m.pc.toNat + 1) :
    m.fetchCycle = .stopped (.error (.pcOutOfRange m.pc)) m := by
  rw [fetchCycle, if_pos outside]

theorem fetchCycle_inside (inside : m.pc.toNat + 1 < Memory.size) :
    m.fetchCycle = (m.executeCycle (Instruction.decode m.word)).logged
      [.executing m.pc (Instruction.decode m.word)] := by
  rw [fetchCycle, if_neg (Nat.not_le_of_lt inside), fetch_inside inside]

theorem executeCycle_ok (done : (m.execute ins).result = .ok flow) :
    (m.executeCycle ins).result = .ok (.ofInstruction ins)
      ∧ (m.executeCycle ins).machine = ((m.execute ins).machine.moved flow).cycleTimers.1 := by
  unfold executeCycle
  dsimp only
  rw [done]
  exact ⟨rfl, rfl⟩

theorem executeCycle_error (stops : m.Stops ins cause) :
    m.executeCycle ins = .stopped cause m := by
  rw [executeCycle, execute_of_stops stops]
  rfl

theorem haltOnError_of_ok {o : Outcome Step} {step : Step} (done : o.result = .ok step) :
    haltOnError o = o := by
  rw [haltOnError, done]

/-- A step has the outcome that is told of it. -/
theorem Stepped.step_eq {result : Except Stop Step} {machine : Machine}
    (told : m.Stepped keys result machine) :
    (m.step keys).result = result ∧ (m.step keys).machine = machine := by
  have word : (m.refreshed keys).word = m.word := rfl
  cases told with
  | halted halted =>
    rw [step_of_halted halted]
    exact ⟨rfl, rfl⟩
  | waiting waits undecided =>
    rw [step_of_waiting waits, awaitCycle, undecided]
    exact ⟨rfl, rfl⟩
  | received waits pressed =>
    rw [step_of_waiting waits, awaitCycle, pressed]
    exact ⟨rfl, rfl⟩
  | executed runs inside done =>
    obtain ⟨result, machine⟩ := executeCycle_ok done
    rw [step_of_running runs, fetchCycle_inside (m := m.refreshed keys) inside, word,
      haltOnError_of_ok (o := ((m.refreshed keys).executeCycle _).logged _) result]
    exact ⟨result, machine⟩
  | ranOff runs outside =>
    rw [step_of_running runs, fetchCycle_outside (m := m.refreshed keys) outside]
    exact ⟨rfl, rfl⟩
  -- only a fatal condition halts the machine
  | failed runs inside stops | faulted runs inside stops =>
    rw [step_of_running runs, fetchCycle_inside (m := m.refreshed keys) inside, word,
      executeCycle_error (stops_refreshed.mpr stops)]
    exact ⟨rfl, rfl⟩

/-- Every step is one of the outcomes. -/
theorem stepped (m : Machine) (keys : KeySource) :
    m.Stepped keys (m.step keys).result (m.step keys).machine := by
  have told : ∃ result machine, m.Stepped keys result machine := by
    cases state : m.state with
    | halted => exact ⟨_, _, .halted state⟩
    | waitingForKey x =>
      cases pressed : (m.refreshed keys).keypad.single with
      | none => exact ⟨_, _, .waiting state pressed⟩
      | some k => exact ⟨_, _, .received state pressed⟩
    | running =>
      by_cases inside : m.pc.toNat + 1 < Memory.size
      · cases done : ((m.refreshed keys).execute (Instruction.decode m.word)).result with
        | ok flow => exact ⟨_, _, .executed state inside done⟩
        | error cause =>
          have stops := stops_refreshed.mp (execute_error_iff.mp done)
          cases cause with
          | error cause => exact ⟨_, _, .failed state inside stops⟩
          | fault cause => exact ⟨_, _, .faulted state inside stops⟩
      · exact ⟨_, _, .ranOff state (Nat.le_of_not_lt inside)⟩
  obtain ⟨result, machine, told⟩ := told
  obtain ⟨same, left⟩ := told.step_eq
  rw [same, left]
  exact told

/-- A step that executes an instruction comes from a running machine with that instruction at its
    program counter, and does what the instruction does. -/
theorem of_executed (answered : (m.step keys).result = .ok (.executed ins)) :
    m.state = .running ∧ m.pc.toNat + 1 < Memory.size ∧ Instruction.decode m.word = ins ∧ ∃ flow,
      ((m.refreshed keys).execute ins).result = .ok flow
        ∧ (m.step keys).machine
          = (((m.refreshed keys).execute ins).machine.moved flow).cycleTimers.1 := by
  have step := m.stepped keys
  generalize (m.step keys).result = result, (m.step keys).machine = machine at answered step ⊢
  cases step with
  | @executed flow runs inside done =>
    have decoded : Instruction.decode m.word = ins :=
      Step.ofInstruction_eq_executed (Except.ok.inj answered)
    rw [decoded] at done ⊢
    exact ⟨runs, inside, rfl, flow, done, rfl⟩
  | halted | waiting | received => cases answered
  | ranOff | failed | faulted => cases answered

/-! ## Where a step goes -/

/-- A step leaves the stack alone, or does with it what the instruction that it executes does. -/
theorem step_stack (m : Machine) (keys : KeySource) :
    (m.step keys).machine.stack = m.stack
      ∨ ∃ flow, (m.refreshed keys).Control (Instruction.decode m.word) flow
          (m.step keys).machine.stack := by
  have step := m.stepped keys
  generalize (m.step keys).result = result, (m.step keys).machine = machine at step ⊢
  cases step with
  | halted | ranOff | failed | faulted => exact .inl rfl
  | waiting | received =>
    rw [cycleTimers_stack]
    exact .inl rfl
  | executed _ _ done =>
    rw [cycleTimers_stack]
    exact .inr ⟨_, control done⟩

/-- What a step that executes an instruction does to the program counter and the stack. -/
theorem control_of_executed (answered : (m.step keys).result = .ok (.executed ins)) :
    m.pc.toNat + 1 < Memory.size ∧ ∃ flow,
      (m.refreshed keys).Control ins flow (m.step keys).machine.stack
        ∧ (m.step keys).machine.pc = flow.move m.pc := by
  obtain ⟨_, inside, _, flow, done, left⟩ := of_executed answered
  obtain ⟨_, _, ticked⟩ := (((m.refreshed keys).execute ins).machine.moved flow).cycleTimers_machine
  rw [left, ticked]
  refine ⟨inside, flow, control done, ?_⟩
  rw [moved, execute_pc]
  rfl

/-! ## What a step of a running machine answers -/

theorem step_of_outside (runs : m.state = .running) (outside : Memory.size ≤ m.pc.toNat + 1) :
    (m.step keys).result = .error (.error (.pcOutOfRange m.pc)) :=
  (Stepped.ranOff runs outside).step_eq.1

theorem step_of_stops (runs : m.state = .running) (inside : m.pc.toNat + 1 < Memory.size)
    (stops : m.Stops (Instruction.decode m.word) cause) :
    (m.step keys).result = .error cause := by
  cases cause with
  | error cause => exact (Stepped.failed runs inside stops).step_eq.1
  | fault cause => exact (Stepped.faulted runs inside stops).step_eq.1

theorem step_of_proceeds (runs : m.state = .running) (inside : m.pc.toNat + 1 < Memory.size)
    (proceeds : ∀ cause, ¬ m.Stops (Instruction.decode m.word) cause) :
    (m.step keys).result = .ok (.ofInstruction (Instruction.decode m.word)) := by
  have step := m.stepped keys
  generalize (m.step keys).result = result, (m.step keys).machine = machine at step ⊢
  cases step with
  | executed => rfl
  | failed _ _ stops => exact absurd stops (proceeds _)
  | faulted _ _ stops => exact absurd stops (proceeds _)
  | ranOff _ outside => exact absurd inside (Nat.not_lt_of_le outside)
  | halted halted => exact absurd (runs.symm.trans halted) (by decide)
  | waiting waits | received waits => exact absurd (runs.symm.trans waits) (by simp)

end Machine

end Chip8
