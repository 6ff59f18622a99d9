import Chip8.Proofs.History

/-! # Who writes to memory

Two instructions write to memory: one stores the decimal digits of a register, the other a block of
registers.  Both write at the index register and no further than their operand says, and no other
instruction, step or operation of a host that drives a program changes a cell.

The statements go from the instruction to the step to the history: `execute_cell`, `step_cell` and
`after_cell` say that a cell keeps its byte unless a store covers it.
-/

namespace Chip8

namespace Memory

variable {m m' : Memory} {addr length a : Nat} {bytes : List UInt8}

theorem getElem?_store (m : Memory) (addr : Nat) (bytes : List UInt8) (inside : a < size) :
    (m.store addr bytes).cells[a]? =
      if addr ≤ a ∧ a < addr + bytes.length then bytes[a - addr]? else m.cells[a]? := by
  rw [Vector.getElem?_eq_getElem inside, Vector.getElem?_eq_getElem inside, store,
    getElem_writeBlock]
  by_cases reached : addr ≤ a
  · by_cases covered : a < addr + bytes.length
    · have place : a - addr < bytes.length := by omega
      simp [reached, covered, place]
    · have behind : bytes.length ≤ a - addr := by omega
      simp [reached, covered, behind]
  · simp [reached]

theorem store_outside (m : Memory) (outside : a < addr ∨ addr + bytes.length ≤ a) :
    (m.store addr bytes).cells[a]? = m.cells[a]? := by
  by_cases inside : a < size
  · rw [getElem?_store m addr bytes inside, if_neg (by omega)]
  · rw [Vector.getElem?_eq_none (Nat.le_of_not_lt inside),
      Vector.getElem?_eq_none (Nat.le_of_not_lt inside)]

theorem store_of_overwrite (written : m.overwrite addr length bytes = .ok m') :
    bytes.length = length ∧ m' = m.store addr bytes := by
  unfold overwrite at written
  cases checked : checkSpan addr length with
  | error cause =>
    rw [checked] at written
    cases written
  | ok _ =>
    rw [checked] at written
    by_cases same : bytes.length = length
    · simp only [bind, Except.bind, if_pos same] at written
      cases written
      exact ⟨same, rfl⟩
    · simp only [bind, Except.bind, if_neg same] at written
      cases written

theorem cell_of_overwrite (written : m.overwrite addr length bytes = .ok m')
    (outside : ¬ (addr ≤ a ∧ a < addr + length)) : m'.cells[a]? = m.cells[a]? := by
  obtain ⟨same, rfl⟩ := store_of_overwrite written
  apply m.store_outside
  omega

end Memory

/-- Whether an instruction writes to an address. -/
def Machine.writes (m : Machine) : Instruction → Nat → Bool
  | .storeDecimal _, a => decide (m.index.address ≤ a ∧ a ≤ m.index.address + 2)
  | .saveRegisters x, a => decide (m.index.address ≤ a ∧ a ≤ m.index.address + x.toNat)
  | _, _ => false

/-- Whether the instruction that the step executes, if it does, writes to an address. -/
def Moment.writes (moment : Moment) (a : Nat) : Bool :=
  match moment.result with
  | .ok (.executed ins) => moment.machine.writes ins a
  | _ => false

namespace Machine

variable {m : Machine} {keys : KeySource} {ins : Instruction} {a : Nat}

theorem execute_cell (unwritten : m.writes ins a = false) :
    (m.execute ins).machine.memory.cells[a]? = m.memory.cells[a]? := by
  have ended := m.ends ins
  generalize m.execute ins = o at ended ⊢
  cases ended with
  -- the two instructions that write, each over a span as long as its operand says
  | storedDecimal written | savedRegisters written =>
    apply Memory.cell_of_overwrite written
    have outside := of_decide_eq_false unwritten
    omega
  | other succeeds => cases ins <;> first | exact False.elim succeeds | rfl
  | _ => rfl

theorem writes_of_answered (answered : (m.step keys).result = .ok (.ofInstruction ins)) :
    Moment.writes ⟨m, keys⟩ a = m.writes ins a := by
  rw [Moment.writes, Moment.result, answered]
  cases ins <;> rfl

theorem step_cell (unwritten : Moment.writes ⟨m, keys⟩ a = false) :
    (m.step keys).machine.memory.cells[a]? = m.memory.cells[a]? := by
  have told : ∀ ins, (m.step keys).result = .ok (.ofInstruction ins) → m.writes ins a = false :=
    fun _ answered => (writes_of_answered answered).symm.trans unwritten
  have step := m.stepped keys
  generalize (m.step keys).result = result, (m.step keys).machine = machine at step told ⊢
  cases step with
  | halted | ranOff | failed | faulted => rfl
  | waiting | received =>
    obtain ⟨_, _, ticked⟩ := cycleTimers_machine _
    rw [ticked]
    rfl
  | executed =>
    obtain ⟨_, _, ticked⟩ := cycleTimers_machine _
    rw [ticked]
    exact execute_cell (m := m.refreshed keys) (told _ rfl)

theorem after_cell {ops : List Operation} (driving : ∀ op ∈ ops, op.Driving)
    (unwritten : ∀ moment ∈ m.moments ops, moment.writes a = false) :
    (m.after ops).memory.cells[a]? = m.memory.cells[a]? := by
  refine after_preserves (P := fun m' => m'.memory.cells[a]? = m.memory.cells[a]?)
    ?_ ?_ driving unwritten rfl
  · intro moment unwritten kept
    exact (step_cell unwritten).trans kept
  · intro _ _ _ _ _ kept
    exact kept

theorem writes_of_changed {ops : List Operation} (driving : ∀ op ∈ ops, op.Driving)
    (changed : (m.after ops).memory.cells[a]? ≠ m.memory.cells[a]?) :
    ∃ moment ∈ m.moments ops, moment.writes a = true := by
  apply Classical.byContradiction
  intro untouched
  apply changed
  apply after_cell driving
  intro moment member
  apply eq_false_of_ne_true
  intro written
  exact untouched ⟨moment, member, written⟩

end Machine

end Chip8
