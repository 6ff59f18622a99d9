import Chip8.Proofs.Stepping

/-! # When a step fails, and what is left then

`Machine.Fails` tells the fatal conditions of a machine from the word at its program counter alone,
without decoding it.  A step fails in exactly these conditions, and a failure is atomic: apart from
the refreshed keypad and the halted state the machine is the one from before the step, so that the
same failure comes again if it is set running.
-/

namespace Chip8

open Word Instruction

namespace Machine

/-- The fatal conditions of a machine that runs. -/
inductive Fails (m : Machine) : MachineError → Prop
  | ranOff (outside : 0xFFF ≤ m.pc.toNat) : m.Fails (.pcOutOfRange m.pc)
  | call (inside : m.pc.toNat < 0xFFF) (word : family m.word = 0x2) (full : m.stack.depth = 16) :
      m.Fails (.stackOverflow m.pc)
  | ret (inside : m.pc.toNat < 0xFFF) (word : m.word = 0x00EE) (empty : m.stack.depth = 0) :
      m.Fails (.stackUnderflow m.pc)
  | draw (inside : m.pc.toNat < 0xFFF) (word : family m.word = 0xD)
      (outside : 4096 < m.index.address + lastDigit m.word) :
      m.Fails (.memoryOutOfBounds (m.index.address + lastDigit m.word - 1))
  | storeDecimal (inside : m.pc.toNat < 0xFFF) (word : family m.word = 0xF)
      (last : lastByte m.word = 0x33) (outside : 4096 < m.index.address + 3) :
      m.Fails (.memoryOutOfBounds (m.index.address + 2))
  | saveRegisters (inside : m.pc.toNat < 0xFFF) (word : family m.word = 0xF)
      (last : lastByte m.word = 0x55) (outside : 4096 < m.index.address + (x m.word).toNat + 1) :
      m.Fails (.memoryOutOfBounds (m.index.address + (x m.word).toNat))
  | restoreRegisters (inside : m.pc.toNat < 0xFFF) (word : family m.word = 0xF)
      (last : lastByte m.word = 0x65) (outside : 4096 < m.index.address + (x m.word).toNat + 1) :
      m.Fails (.memoryOutOfBounds (m.index.address + (x m.word).toNat))

variable {m : Machine} {keys : KeySource} {cause : MachineError}

/-! ## The failing instructions as words -/

theorem stops_of_fails (inside : m.pc.toNat < 0xFFF) (fails : m.Fails cause) :
    m.Stops (decode m.word) (.error cause) := by
  cases fails with
  | ranOff outside => exact absurd inside (Nat.not_lt_of_le outside)
  | call _ word full =>
    have decoded : decode m.word = .call (nnn m.word) := by simp only [decode, word]
    rw [decoded]
    exact .overflow full
  | ret _ word empty =>
    rw [word]
    exact .underflow empty
  | draw _ word outside =>
    have decoded : decode m.word = .draw (x m.word) (y m.word) (.ofNat (lastDigit m.word)) := by
      simp only [decode, word]
    rw [decoded]
    have height := toNat_lastDigit m.word
    generalize UInt8.ofNat (lastDigit m.word) = n at height ⊢
    rw [← height] at outside ⊢
    exact .draw outside
  | storeDecimal _ word last outside =>
    have decoded : decode m.word = .storeDecimal (x m.word) := by
      simp only [decode, word, last, transfer]
    rw [decoded]
    exact .storeDecimal outside
  | saveRegisters _ word last outside =>
    have decoded : decode m.word = .saveRegisters (x m.word) := by
      simp only [decode, word, last, transfer]
    rw [decoded]
    exact .saveRegisters outside
  | restoreRegisters _ word last outside =>
    have decoded : decode m.word = .restoreRegisters (x m.word) := by
      simp only [decode, word, last, transfer]
    rw [decoded]
    exact .restoreRegisters outside

theorem fails_of_stops (inside : m.pc.toNat < 0xFFF)
    (stops : m.Stops (decode m.word) (.error cause)) : m.Fails cause := by
  -- the word is known again from the instruction it decodes to
  have encoded := encode_decode m.word
  have formed := decode_wellFormed m.word
  generalize decode m.word = ins at stops encoded formed
  cases stops with
  | @overflow addr full =>
    have word : family m.word = 0x2 := by
      rw [← encoded]
      exact family_ofAddress (by decide) formed
    exact .call inside word full
  | underflow empty => exact .ret inside encoded.symm empty
  | @draw r s n outside =>
    have fields := fields_ofRegisters (f := 0xD) (by decide) formed.1 formed.2.1 formed.2.2
    change ofRegisters 0xD r s n.toNat = m.word at encoded
    rw [encoded] at fields
    rw [← fields.2] at outside ⊢
    exact .draw inside fields.1 outside
  | @storeDecimal r outside =>
    have fields := fields_ofRegister (f := 0xF) (by decide) formed (show 0x33 < 0x100 by decide)
    change ofRegister 0xF r 0x33 = m.word at encoded
    rw [encoded] at fields
    exact .storeDecimal inside fields.1 fields.2.2 outside
  | @saveRegisters r outside =>
    have fields := fields_ofRegister (f := 0xF) (by decide) formed (show 0x55 < 0x100 by decide)
    change ofRegister 0xF r 0x55 = m.word at encoded
    rw [encoded] at fields
    rw [← fields.2.1] at outside ⊢
    exact .saveRegisters inside fields.1 fields.2.2 outside
  | @restoreRegisters r outside =>
    have fields := fields_ofRegister (f := 0xF) (by decide) formed (show 0x65 < 0x100 by decide)
    change ofRegister 0xF r 0x65 = m.word at encoded
    rw [encoded] at fields
    rw [← fields.2.1] at outside ⊢
    exact .restoreRegisters inside fields.1 fields.2.2 outside

/-! ## Steps -/

theorem step_error_iff :
    (m.step keys).result = .error (.error cause) ↔ m.state = .running ∧ m.Fails cause := by
  constructor
  · intro failed
    have step := m.stepped keys
    generalize (m.step keys).result = result, (m.step keys).machine = machine at failed step
    cases step with
    | ranOff runs outside =>
      cases failed
      exact ⟨runs, .ranOff (by simp only [Memory.size] at outside; omega)⟩
    | failed runs inside stops =>
      cases failed
      exact ⟨runs, fails_of_stops (by simp only [Memory.size] at inside; omega) stops⟩
    | _ => cases failed
  · -- the program counter is looked at before the word, as `Fails` does
    rintro ⟨runs, fails⟩
    by_cases inside : m.pc.toNat < 0xFFF
    · have room : m.pc.toNat + 1 < Memory.size := by simp only [Memory.size]; omega
      exact step_of_stops runs room (stops_of_fails inside fails)
    · cases fails with
      | ranOff outside =>
        exact step_of_outside runs (by simp only [Memory.size]; omega)
      | _ => contradiction

/-- A failure hangs only on memory, the program counter, the stack, the index register and the
    registers. -/
theorem Fails.transfer {m' : Machine} (fails : m.Fails cause) (memory : m'.memory = m.memory)
    (pc : m'.pc = m.pc) (stack : m'.stack = m.stack) (index : m'.index = m.index) :
    m'.Fails cause := by
  have word : m'.word = m.word := by rw [Machine.word, memory, pc, Machine.word]
  cases fails with
  | ranOff outside => exact pc ▸ .ranOff (pc ▸ outside)
  | call inside first full => exact pc ▸ .call (pc ▸ inside) (word ▸ first) (stack ▸ full)
  | ret inside first empty => exact pc ▸ .ret (pc ▸ inside) (word ▸ first) (stack ▸ empty)
  | draw inside first outside =>
    rw [← index, ← word] at *
    exact .draw (pc ▸ inside) first outside
  | storeDecimal inside first last outside =>
    rw [← index, ← word] at *
    exact .storeDecimal (pc ▸ inside) first last outside
  | saveRegisters inside first last outside =>
    rw [← index, ← word] at *
    exact .saveRegisters (pc ▸ inside) first last outside
  | restoreRegisters inside first last outside =>
    rw [← index, ← word] at *
    exact .restoreRegisters (pc ▸ inside) first last outside

theorem refresh_eq_ofFn (p : Keypad) (keys : KeySource) : p.refresh keys = ⟨Vector.ofFn keys⟩ := by
  unfold Keypad.refresh
  congr 1
  apply Vector.ext
  intro k bound
  simp

theorem machine_of_step_error (failed : (m.step keys).result = .error (.error cause)) :
    (m.step keys).machine = { m with keypad := ⟨Vector.ofFn keys⟩, state := .halted } := by
  have step := m.stepped keys
  generalize (m.step keys).result = result, (m.step keys).machine = machine at failed step ⊢
  rw [← refresh_eq_ofFn m.keypad]
  cases step with
  | ranOff => rfl
  | failed => rfl
  | _ => cases failed

/-! ## Atomicity -/

/-- A failure is atomic.  An instruction that fails leaves the whole machine as it found it.  A step
    that fails changes the keypad, which holds the keys of that step, and halts the machine; set
    running again, the machine fails in the same way, whatever keys are down. -/
theorem failure_atomic (m : Machine) :
    (∀ ins cause, (m.execute ins).result = .error (.error cause) → (m.execute ins).machine = m)
      ∧ ∀ keys cause, (m.step keys).result = .error (.error cause) →
          (m.step keys).machine = { m with keypad := ⟨Vector.ofFn keys⟩, state := .halted }
            ∧ ∀ keys', ({ (m.step keys).machine with state := .running }.step keys').result
                = .error (.error cause) := by
  refine ⟨fun ins cause stopped => machine_of_error stopped, ?_⟩
  intro keys cause failed
  have left := machine_of_step_error failed
  refine ⟨left, ?_⟩
  intro keys'
  obtain ⟨_, fails⟩ := step_error_iff.mp failed
  rw [left]
  exact step_error_iff.mpr ⟨rfl, fails.transfer rfl rfl rfl rfl⟩

/-- A machine whose next instruction draws five rows, with the index register at the last cell. -/
def atEdge : Machine :=
  { fresh (.arithmetic 0 0) with memory := ⟨Vector.replicate 4096 0xD5⟩, index := ⟨0xFFF⟩ }

theorem word_atEdge : atEdge.word = 0xD5D5 := by
  simp [word, Memory.word, atEdge, fresh, Memory.programStart]

theorem atEdge_fails : atEdge.Fails (.memoryOutOfBounds 0x1003) := by
  have first : family atEdge.word = 0xD := by
    rw [word_atEdge]
    rfl
  have height : lastDigit atEdge.word = 5 := by
    rw [word_atEdge]
    rfl
  have address : atEdge.index.address = 0xFFF := rfl
  have outside : 4096 < atEdge.index.address + lastDigit atEdge.word := by
    rw [height, address]
    decide
  have fails := Fails.draw (by decide) first outside
  rw [height, address] at fails
  exact fails

theorem failure_atomic_atEdge :
    (atEdge.execute (.draw 5 13 5)).result = .error (.error (.memoryOutOfBounds 0x1003))
      ∧ (atEdge.execute (.draw 5 13 5)).machine = atEdge
      ∧ (atEdge.step fun _ => true).result = .error (.error (.memoryOutOfBounds 0x1003))
      ∧ (atEdge.step fun _ => true).machine =
          { atEdge with keypad := ⟨Vector.ofFn fun _ => true⟩, state := .halted }
      ∧ ({ (atEdge.step fun _ => true).machine with state := .running }.step fun _ => false).result
          = .error (.error (.memoryOutOfBounds 0x1003)) := by
  have stopped : (atEdge.execute (.draw 5 13 5)).result
      = .error (.error (.memoryOutOfBounds 0x1003)) :=
    execute_error_iff.mpr (.draw (by decide))
  have failed : (atEdge.step fun _ => true).result = .error (.error (.memoryOutOfBounds 0x1003)) :=
    step_error_iff.mpr ⟨rfl, atEdge_fails⟩
  obtain ⟨executed, stepped⟩ := failure_atomic atEdge
  obtain ⟨left, again⟩ := stepped _ _ failed
  exact ⟨stopped, executed _ _ stopped, failed, left, again _⟩

/-! ## The exact conditions -/

/-- A step fails exactly in the listed conditions, each with its own error, and these only befall a
    machine that runs.  A running machine that none of them befalls answers the instruction that its
    word decodes to, or the word itself if that is none; the stack is then one that pushing and
    popping can build, with at most sixteen addresses.  The fetch has no part in this: wherever a
    step comes to it, it finds the instruction. -/
theorem step_answers_exactly (m : Machine) (keys : KeySource) :
    (∀ cause, (m.step keys).result = .error (.error cause) ↔ m.state = .running ∧ m.Fails cause)
      ∧ (m.state = .running → m.stack.depth ≤ CallStack.capacity → (∀ cause, ¬ m.Fails cause) →
          (∀ u, decode m.word = .unknown u → (m.step keys).result = .ok (.unknown m.word))
            ∧ ((∀ u, decode m.word ≠ .unknown u) →
              (m.step keys).result = .ok (.executed (decode m.word))))
      ∧ (m.pc.toNat < 0xFFF → m.fetch = .ok (decode m.word)) := by
  refine ⟨fun cause => step_error_iff, ?_, ?_⟩
  · intro runs bounded safe
    have inside : m.pc.toNat < 0xFFF := by
      apply Nat.lt_of_not_le
      intro outside
      exact safe _ (.ranOff outside)
    have proceeds : ∀ cause, ¬ m.Stops (decode m.word) cause := by
      intro cause stops
      cases cause with
      | error cause => exact safe cause (fails_of_stops inside stops)
      | fault cause => exact decoded_not_fault bounded stops
    have room : m.pc.toNat + 1 < Memory.size := by simp only [Memory.size]; omega
    have answered : (m.step keys).result = _ := step_of_proceeds runs room proceeds
    constructor
    · intro u unknown
      have same : u = m.word := by
        rw [← encode_decode m.word, unknown]
        rfl
      rw [answered, unknown, ← same]
      rfl
    · intro known
      rw [answered]
      cases decoded : decode m.word with
      | unknown u => exact absurd decoded (known u)
      | _ => rfl
  · intro inside
    exact fetch_inside (by simp only [Memory.size]; omega)

/-- A machine whose memory holds nothing but zeros, which decode to an ignored call. -/
def atZeros : Machine :=
  { fresh (.arithmetic 0 0) with memory := ⟨Vector.replicate 4096 0⟩ }

theorem word_atZeros : atZeros.word = 0 := by
  simp [word, Memory.word, atZeros, fresh, Memory.programStart]

theorem atZeros_safe (cause : MachineError) : ¬ atZeros.Fails cause := by
  intro fails
  cases fails with
  | ranOff outside => exact absurd outside (by decide)
  | call _ first | draw _ first | storeDecimal _ first | saveRegisters _ first
  | restoreRegisters _ first =>
    rw [word_atZeros] at first
    exact absurd first (by decide)
  | ret _ first =>
    rw [word_atZeros] at first
    exact absurd first (by decide)

theorem step_answers_exactly_at_work :
    (atEdge.step fun _ => true).result = .error (.error (.memoryOutOfBounds 0x1003))
      ∧ (atZeros.step fun _ => true).result = .ok (.executed (.sys 0))
      ∧ atZeros.fetch = .ok (.sys 0) := by
  have decoded : decode atZeros.word = .sys 0 := by
    rw [word_atZeros]
    rfl
  obtain ⟨failing, _, _⟩ := step_answers_exactly atEdge fun _ => true
  obtain ⟨_, answering, fetching⟩ := step_answers_exactly atZeros fun _ => true
  obtain ⟨_, known⟩ := answering rfl (by decide) atZeros_safe
  rw [decoded] at known fetching
  exact ⟨(failing _).mpr ⟨rfl, atEdge_fails⟩, known (fun u => by simp), fetching (by decide)⟩

end Machine

end Chip8
