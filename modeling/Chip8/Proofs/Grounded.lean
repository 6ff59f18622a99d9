import Chip8.Proofs.History
import Chip8.Proofs.Stepping

/-! # Where a machine can get to

`Machine.Grounded` bounds the stack, the program counter, the index register and the return
addresses of a machine, and says what a machine that waits for a key has just executed;
`Machine.Aligned` says that the program counter and the return addresses are even.  Every step keeps
the first, and a step that does not go to an odd address keeps the second, whatever the program is
and however it rewrites itself.

The non-trivial ingredient is the bound on the return addresses: a return may go to any of them, so
the bound on the program counter rests on theirs, and theirs on a call being fetched from inside
memory.
-/

namespace Chip8

namespace Machine

/-- The ranges that a machine stays in. -/
structure Grounded (m : Machine) : Prop where
  depth : m.stack.depth ≤ CallStack.capacity
  index : m.index.raw.toNat ≤ 0xFFF
  pc : m.pc.toNat ≤ 0x10FE
  returns : ∀ a ∈ m.stack.live, 2 ≤ a.toNat ∧ a.toNat ≤ 0x1000
  /-- A machine waits only right behind the instruction that told it to. -/
  waits : ∀ x, m.state = .waitingForKey x →
    x.toNat < 16 ∧ 2 ≤ m.pc.toNat ∧ m.pc.toNat ≤ 0x1000
      ∧ m.memory.readWord (m.pc - 2) = .ok (0xF00A + 256 * x.toUInt16)

/-- The program counter and the return addresses are even. -/
structure Aligned (m : Machine) : Prop where
  pc : m.pc.toNat % 2 = 0
  returns : ∀ a ∈ m.stack.live, a.toNat % 2 = 0

variable {m m' : Machine} {keys : KeySource} {ins : Instruction} {flow : Flow} {stack : CallStack}

theorem Grounded.transfer (grounded : m.Grounded) (stack : m'.stack = m.stack)
    (index : m'.index = m.index) (pc : m'.pc = m.pc) (memory : m'.memory = m.memory)
    (state : ∀ x, m'.state = .waitingForKey x → m.state = .waitingForKey x) : m'.Grounded where
  depth := stack ▸ grounded.depth
  index := index ▸ grounded.index
  pc := pc ▸ grounded.pc
  returns := stack ▸ grounded.returns
  waits := by
    intro x waits
    rw [pc, memory]
    exact grounded.waits x (state x waits)

theorem Aligned.transfer (aligned : m.Aligned) (stack : m'.stack = m.stack) (pc : m'.pc = m.pc) :
    m'.Aligned where
  pc := pc ▸ aligned.pc
  returns := stack ▸ aligned.returns

theorem Grounded.cycleTimers (grounded : m.Grounded) : m.cycleTimers.1.Grounded := by
  obtain ⟨_, _, ticked⟩ := m.cycleTimers_machine
  rw [ticked]
  exact grounded.transfer rfl rfl rfl rfl fun _ waits => waits

theorem Aligned.cycleTimers (aligned : m.Aligned) : m.cycleTimers.1.Aligned := by
  obtain ⟨_, _, ticked⟩ := m.cycleTimers_machine
  rw [ticked]
  exact aligned.transfer rfl rfl

/-! ## Executing an instruction -/

theorem aim_le {target : UInt16} (aims : m.aim ins = some target) (formed : ins.WellFormed) :
    target.toNat ≤ 0x10FE := by
  cases ins with
  | jump addr | call addr =>
    cases aims
    have low : target.toNat < 0x1000 := formed
    omega
  | jumpOffset addr =>
    cases aims
    -- twelve bits of an address and a byte, which is where the bound comes from
    have low : addr.toNat < 0x1000 := formed
    have byte : (m.v 0).toNat < 256 := (m.v 0).toNat_lt
    simp only [UInt16.toNat_add, UInt8.toNat_toUInt16]
    omega
  | _ => cases aims

/-- Wherever an instruction inside memory goes, its address is bounded, and so are the return
    addresses it leaves. -/
theorem Control.grounded (went : m.Control ins flow stack) (formed : ins.WellFormed)
    (inside : m.pc.toNat + 1 < Memory.size) (grounded : m.Grounded) :
    (flow.move m.pc).toNat ≤ 0x10FE ∧ ∀ a ∈ stack.live, 2 ≤ a.toNat ∧ a.toNat ≤ 0x1000 := by
  obtain ⟨next, skip⟩ := toNat_add_forward grounded.pc
  simp only [Memory.size] at inside
  constructor
  · rcases went.goes with moved | moved | aims | returns
    · rw [moved]
      omega
    · rw [moved]
      omega
    · exact aim_le aims formed
    · -- a return takes its bound over from the return addresses
      have bounds := grounded.returns _ returns
      omega
  · intro a member
    rcases went.mem_live member with older | rfl
    · exact grounded.returns a older
    · omega

theorem awaitKey_word {x : UInt8} {w : UInt16} (decoded : Instruction.decode w = .awaitKey x) :
    x.toNat < 16 ∧ w = 0xF00A + 256 * x.toUInt16 := by
  have formed := Instruction.decode_wellFormed w
  rw [decoded] at formed
  have register : x.toNat < 16 := formed
  refine ⟨register, ?_⟩
  rw [← Instruction.encode_decode w, decoded]
  apply UInt16.toNat_inj.mp
  simp only [Instruction.encode, Word.ofRegister, UInt16.toNat_ofNat', UInt16.toNat_add,
    UInt16.toNat_mul, UInt8.toNat_toUInt16, UInt16.reduceToNat]
  omega

theorem Grounded.executed (grounded : m.Grounded) (runs : m.state = .running)
    (inside : m.pc.toNat + 1 < Memory.size)
    (done : (m.execute (Instruction.decode m.word)).result = .ok flow) :
    ((m.execute (Instruction.decode m.word)).machine.moved flow).Grounded := by
  obtain ⟨pc, returns⟩ := (control done).grounded (Instruction.decode_wellFormed _) inside grounded
  refine ⟨(control done).depth_le grounded.depth, execute_index_le m _ grounded.index, ?_, returns, ?_⟩
  · rw [moved, execute_pc]
    exact pc
  · intro x waits
    rcases execute_state m (Instruction.decode m.word) with same | ⟨y, decoded, left⟩
    · exact absurd (runs.symm.trans (same.symm.trans waits)) (by simp)
    · -- the instruction was this very wait, so memory is what it was fetched from
      rw [decoded] at done
      cases done
      obtain ⟨register, word⟩ := awaitKey_word decoded
      obtain ⟨next, _⟩ := toNat_add_forward grounded.pc
      rw [left] at waits ⊢
      cases waits
      simp only [Memory.size] at inside
      refine ⟨register, ?_, ?_, ?_⟩
      · show 2 ≤ (m.pc + 2).toNat
        omega
      · show (m.pc + 2).toNat ≤ 0x1000
        omega
      · show m.memory.readWord (m.pc + 2 - 2) = _
        rw [UInt16.add_sub_cancel, Memory.readWord_inside _ inside, ← word, Machine.word]

/-! ## Taking a step -/

theorem step_grounded (grounded : m.Grounded) : (m.step keys).machine.Grounded := by
  have refreshed : (m.refreshed keys).Grounded :=
    grounded.transfer rfl rfl rfl rfl fun _ waits => waits
  have step := m.stepped keys
  generalize (m.step keys).result = result, (m.step keys).machine = machine at step ⊢
  cases step with
  | halted => exact grounded
  | waiting => exact refreshed.cycleTimers
  -- the key has come, so the machine waits no longer
  | received =>
    apply Grounded.cycleTimers
    exact refreshed.transfer rfl rfl rfl rfl fun _ waits => by cases waits
  | executed runs inside done => exact (refreshed.executed runs inside done).cycleTimers
  | ranOff | failed => exact refreshed.transfer rfl rfl rfl rfl fun _ waits => by cases waits
  | faulted => exact refreshed

/-- An instruction that goes to an even address, if it says where it goes, keeps the addresses
    even. -/
theorem Control.aligned (went : m.Control ins flow stack) (inside : m.pc.toNat + 1 < Memory.size)
    (even : ∀ target, m.aim ins = some target → target.toNat % 2 = 0) (aligned : m.Aligned) :
    (flow.move m.pc).toNat % 2 = 0 ∧ ∀ a ∈ stack.live, a.toNat % 2 = 0 := by
  have pc := aligned.pc
  have low : m.pc.toNat ≤ 0x10FE := by
    simp only [Memory.size] at inside
    omega
  obtain ⟨next, skip⟩ := toNat_add_forward low
  constructor
  · rcases went.goes with moved | moved | aims | returns
    · rw [moved]
      omega
    · rw [moved]
      omega
    · exact even _ aims
    · exact aligned.returns _ returns
  · intro a member
    rcases went.mem_live member with older | rfl
    · exact aligned.returns a older
    · omega

/-- A step that executes an instruction goes where the instruction aims. -/
theorem target_of_executed (answered : (m.step keys).result = .ok (.ofInstruction ins)) :
    Moment.target ⟨m, keys⟩ = m.aim ins := by
  rw [Moment.target, answered]
  cases ins <;> rfl

theorem step_aligned
    (even : ∀ target, Moment.target ⟨m, keys⟩ = some target → target.toNat % 2 = 0)
    (aligned : m.Aligned) : (m.step keys).machine.Aligned := by
  have aimed : ∀ ins, (m.step keys).result = .ok (.ofInstruction ins) →
      Moment.target ⟨m, keys⟩ = m.aim ins := fun _ => target_of_executed
  have step := m.stepped keys
  generalize (m.step keys).result = result, (m.step keys).machine = machine at step aimed ⊢
  cases step with
  | halted => exact aligned
  | waiting | received =>
    apply Aligned.cycleTimers
    exact aligned.transfer rfl rfl
  | executed _ inside done =>
    rw [aimed _ rfl] at even
    have refreshed : (m.refreshed keys).Aligned := aligned.transfer rfl rfl
    obtain ⟨pc, returns⟩ := (control done).aligned inside even refreshed
    apply Aligned.cycleTimers
    refine ⟨?_, returns⟩
    rw [moved, execute_pc]
    exact pc
  | ranOff | failed | faulted => exact aligned.transfer rfl rfl

/-! ## Whole histories -/

theorem after_grounded {ops : List Operation} (driving : ∀ op ∈ ops, op.Driving)
    (grounded : m.Grounded) : (m.after ops).Grounded := by
  refine after_preserves (P := Grounded) (Q := fun _ => True) ?_ ?_ driving (fun _ _ => trivial)
    grounded
  · intro moment _ grounded
    exact step_grounded grounded
  · intro m _ _ _ _ grounded
    exact grounded.transfer rfl rfl rfl rfl fun _ waits => waits

theorem after_aligned {ops : List Operation} (driving : ∀ op ∈ ops, op.Driving)
    (even : ∀ moment ∈ m.moments ops, ∀ target, moment.target = some target →
      target.toNat % 2 = 0)
    (aligned : m.Aligned) : (m.after ops).Aligned := by
  refine after_preserves (P := Aligned) ?_ ?_ driving even aligned
  · intro moment even aligned
    exact step_aligned even aligned
  · intro m _ _ _ _ aligned
    exact aligned.transfer rfl rfl

theorem loaded_grounded (random : RandomSource) (memory : Memory) :
    ({ fresh random with memory } : Machine).Grounded where
  depth := Nat.zero_le _
  index := by
    show IndexRegister.initial.raw.toNat ≤ 0xFFF
    decide
  pc := by
    show Memory.programStart.toNat ≤ 0x10FE
    decide
  returns := by
    intro a member
    cases member
  waits := by
    intro x waits
    cases waits

theorem loaded_aligned (random : RandomSource) (memory : Memory) :
    ({ fresh random with memory } : Machine).Aligned where
  pc := by
    show Memory.programStart.toNat % 2 = 0
    decide
  returns := by
    intro a member
    cases member

/-- Whatever program a fresh machine was given, and however it is driven then, the machine stays in
    its ranges, so that moving its program counter forward never wraps around; and it stays aligned
    as long as no jump and no call went to an odd address. -/
theorem driven_stays_grounded (random : RandomSource) (rom : List UInt8) {m₀ : Machine}
    {notices : List Notice} (loaded : (fresh random).loadRom rom = .ok (m₀, notices))
    (ops : List Operation) (driving : ∀ op ∈ ops, op.Driving) :
    (m₀.after ops).Grounded
      ∧ (Flow.next.move (m₀.after ops).pc).toNat = (m₀.after ops).pc.toNat + 2
      ∧ (Flow.skip.move (m₀.after ops).pc).toNat = (m₀.after ops).pc.toNat + 4
      ∧ ((∀ moment ∈ m₀.moments ops, ∀ target, moment.target = some target →
          target.toNat % 2 = 0) → (m₀.after ops).Aligned) := by
  obtain ⟨memory, rfl⟩ := machine_of_loadRom loaded
  have grounded := after_grounded driving (loaded_grounded random memory)
  obtain ⟨next, skip⟩ := toNat_add_forward grounded.pc
  refine ⟨grounded, next, skip, ?_⟩
  intro even
  exact after_aligned driving even (loaded_aligned random memory)

/-- A machine with a program of one instruction, which jumps to itself. -/
def looping : Machine :=
  { fresh (.arithmetic 0 0) with memory := Memory.initial.store 0x200 [0x12, 0x00] }

theorem word_looping : looping.word = 0x1200 := by
  have first : looping.memory.cells[0x200]? = some 0x12 := by
    rw [Vector.getElem?_eq_getElem (by decide), looping, Memory.store, getElem_writeBlock]
    rfl
  have second : looping.memory.cells[0x201]? = some 0x00 := by
    rw [Vector.getElem?_eq_getElem (by decide), looping, Memory.store, getElem_writeBlock]
    rfl
  show looping.memory.word 0x200 = 0x1200
  rw [Memory.word, first, second]
  rfl

theorem target_looping (keys : KeySource) : Moment.target ⟨looping, keys⟩ = some 0x200 := by
  have decoded : Instruction.decode looping.word = .jump 0x200 := by
    rw [word_looping]
    rfl
  have answered : (looping.step keys).result = .ok (.ofInstruction (.jump 0x200)) := by
    rw [← decoded]
    apply step_of_proceeds rfl (by decide)
    intro cause stops
    rw [decoded] at stops
    cases stops
  exact target_of_executed answered

theorem looping_stays_grounded :
    (fresh (.arithmetic 0 0)).loadRom [0x12, 0x00] = .ok (looping, [.romLoaded 2])
      ∧ (looping.after [.tickTimers, .step fun _ => true, .takeFrame, .setTimerMode .realtime,
          .run 1000 fun _ => false]).Grounded
      ∧ (looping.after [.step fun _ => true, .takeFrame, .tickTimers]).Aligned := by
  have loaded : (fresh (.arithmetic 0 0)).loadRom [0x12, 0x00] = .ok (looping, [.romLoaded 2]) :=
    rfl
  obtain ⟨grounded, _⟩ := driven_stays_grounded _ _ loaded
    [.tickTimers, .step fun _ => true, .takeFrame, .setTimerMode .realtime,
      .run 1000 fun _ => false] (by simp [Operation.Driving])
  obtain ⟨_, _, _, aligned⟩ := driven_stays_grounded _ _ loaded
    [.step fun _ => true, .takeFrame, .tickTimers] (by simp [Operation.Driving])
  refine ⟨loaded, grounded, aligned ?_⟩
  intro moment member target goes
  simp only [moments, Operation.moments, List.append_nil, List.mem_singleton] at member
  rw [member, target_looping] at goes
  cases goes
  rfl

end Machine

end Chip8
