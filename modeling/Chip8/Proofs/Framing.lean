import Chip8.Proofs.Clocking
import Chip8.Proofs.Storing

/-! # What an instruction leaves alone

`Instruction.touches` is the table of what each instruction may change, part by part, and a machine
is nothing but its parts: two machines that have all of them in common are the same machine
(`eq_of_same`).  So what the table does not name is really left alone, and an instruction without an
entry does nothing at all.

A step does what its instruction does and three things more: it refreshes the keypad, moves the
program counter as the instruction asks for, and ends the cycle of the timers (`machine_of_ran`,
and `Advanced` for what shows of it).
-/

namespace Chip8

/-- The parts of a machine.  Registers and memory come cell by cell. -/
inductive Part where
  | register (k : Fin 16)
  | cell (addr : Nat)
  | pc
  | index
  | stack
  | display
  | keypad
  | delay
  | sound
  | state
  | timerMode
  | random
  | redraw
  deriving DecidableEq, Repr, Inhabited

/-- Whether two machines have a part in common. -/
def Part.Same (m m' : Machine) : Part → Prop
  | .register k => m'.registers.cells.get k = m.registers.cells.get k
  | .cell addr => m'.memory.cells[addr]? = m.memory.cells[addr]?
  | .pc => m'.pc = m.pc
  | .index => m'.index = m.index
  | .stack => m'.stack = m.stack
  | .display => m'.display = m.display
  | .keypad => m'.keypad = m.keypad
  | .delay => m'.delay = m.delay
  | .sound => m'.sound = m.sound
  | .state => m'.state = m.state
  | .timerMode => m'.timerMode = m.timerMode
  | .random => m'.random = m.random
  | .redraw => m'.redraw = m.redraw

/-- The parts that an instruction may change, with the index register at an address. -/
def Instruction.touches (address : Nat) : Instruction → List Part
  | .loadByte x _ | .addByte x _ | .copy x _ | .or x _ | .and x _ | .xor x _ | .readDelay x =>
    [.register (nibble x)]
  | .add x _ | .sub x _ | .shiftRight x _ | .subReverse x _ | .shiftLeft x _ =>
    [.register (nibble x), .register (nibble Registers.flag)]
  | .random x _ => [.register (nibble x), .random]
  | .restoreRegisters x => ((List.finRange 16).filter fun k => k ≤ nibble x).map .register
  | .storeDecimal _ => (List.range' address 3).map .cell
  | .saveRegisters x => (List.range' address (x.toNat + 1)).map .cell
  | .loadIndex _ | .addIndex _ | .pointGlyph _ => [.index]
  | .call _ | .ret => [.stack]
  | .clearScreen => [.display, .redraw]
  | .draw .. => [.register (nibble Registers.flag), .display, .redraw]
  | .setDelay _ => [.delay]
  | .setSound _ => [.sound]
  | .awaitKey _ => [.state]
  | .sys _ | .jump _ | .jumpOffset _ | .unknown _ => []
  | .skipIfByte .. | .skipUnlessByte .. | .skipIfSame .. | .skipUnlessSame .. | .skipIfKey _
  | .skipUnlessKey _ => []

namespace Machine

variable {m m' : Machine} {keys : KeySource} {ins : Instruction} {part : Part} {s : Step}

/-- A machine is its parts. -/
theorem eq_of_same (same : ∀ part, Part.Same m m' part) : m' = m := by
  have registers : m'.registers = m.registers :=
    congrArg Registers.mk (Vector.ext fun k bound => same (.register ⟨k, bound⟩))
  have memory : m'.memory = m.memory := by
    refine congrArg Memory.mk (Vector.ext fun addr bound => Option.some.inj ?_)
    rw [← Vector.getElem?_eq_getElem bound, ← Vector.getElem?_eq_getElem bound]
    exact same (.cell addr)
  have pc : m'.pc = m.pc := same .pc
  have index : m'.index = m.index := same .index
  have stack : m'.stack = m.stack := same .stack
  have display : m'.display = m.display := same .display
  have keypad : m'.keypad = m.keypad := same .keypad
  have delay : m'.delay = m.delay := same .delay
  have sound : m'.sound = m.sound := same .sound
  have state : m'.state = m.state := same .state
  have timerMode : m'.timerMode = m.timerMode := same .timerMode
  have random : m'.random = m.random := same .random
  have redraw : m'.redraw = m.redraw := same .redraw
  cases m
  cases m'
  simp_all

/-! ## Instructions -/

theorem same_of_registers {registers : Registers}
    (kept : ∀ k, part = .register k → registers.cells.get k = m.registers.cells.get k) :
    part.Same m { m with registers } := by
  cases part with
  | register k => exact kept k rfl
  | _ => rfl

theorem same_of_memory {memory : Memory}
    (kept : ∀ addr, part = .cell addr → memory.cells[addr]? = m.memory.cells[addr]?) :
    part.Same m { m with memory } := by
  cases part with
  | cell addr => exact kept addr rfl
  | _ => rfl

theorem cells_set_of_ne {v : Registers} {x value : UInt8} {k : Fin 16} (other : k ≠ nibble x) :
    (v.set x value).cells.get k = v.cells.get k := by
  have apart : (nibble x).val ≠ k.val := fun same => other (Fin.ext same.symm)
  exact Vector.getElem_set_ne (nibble x).isLt k.isLt apart

theorem cells_overwrite_of_gt {v registers : Registers} {x : UInt8} {values : List UInt8}
    {k : Fin 16} (copied : v.overwrite x values = .ok registers) (behind : nibble x < k) :
    registers.cells.get k = v.cells.get k := by
  unfold Registers.overwrite at copied
  split at copied
  next length =>
    cases copied
    have short : values.length ≤ k.val := by
      rw [length]
      exact behind
    refine (getElem_writeBlock v.cells 0 values k k.isLt).trans ?_
    rw [if_pos (Nat.zero_le _), Nat.sub_zero, List.getElem?_eq_none short]
    rfl
  next => cases copied

/-- An instruction changes no part but those that it touches. -/
theorem execute_same (untouched : part ∉ ins.touches m.index.address) :
    part.Same m (m.execute ins).machine := by
  have ended := m.ends ins
  generalize m.execute ins = o at ended ⊢
  cases ended with
  | stopped | jumped => cases part <;> rfl
  | called | returned =>
    cases part with
    | stack => exact absurd (List.mem_singleton_self _) untouched
    | _ => rfl
  | drawn =>
    cases part with
    | register k =>
      exact cells_set_of_ne fun same => untouched (by simp [Instruction.touches, same])
    | display | redraw => exact absurd (by simp [Instruction.touches]) untouched
    | _ => rfl
  | storedDecimal written | savedRegisters written =>
    refine same_of_memory fun addr named => Memory.cell_of_overwrite written fun covered => ?_
    apply untouched
    rw [named]
    exact List.mem_map_of_mem (List.mem_range'_1.mpr covered)
  | @restoredRegisters x _ _ _ copied =>
    refine same_of_registers fun k named =>
      cells_overwrite_of_gt copied (Nat.lt_of_not_le fun low => ?_)
    apply untouched
    rw [named]
    exact List.mem_map_of_mem (List.mem_filter.mpr ⟨List.mem_finRange k, decide_eq_true low⟩)
  | other succeeds =>
    cases ins with
    | call | ret | draw | jumpOffset | storeDecimal | saveRegisters | restoreRegisters =>
      exact False.elim succeeds
    | loadByte x | addByte x | copy x | or x | and x | xor x | readDelay x =>
      refine same_of_registers fun k named => cells_set_of_ne fun same => untouched ?_
      rw [named, same]
      exact List.mem_singleton_self _
    | add x | sub x | shiftRight x | subReverse x | shiftLeft x =>
      refine same_of_registers fun k named => ?_
      have apart : k ≠ nibble x ∧ k ≠ nibble Registers.flag := by
        simpa [Instruction.touches, named] using untouched
      exact (cells_set_of_ne apart.2).trans (cells_set_of_ne apart.1)
    | random x =>
      cases part with
      | register k =>
        exact cells_set_of_ne fun same => untouched (by simp [Instruction.touches, same])
      | random => exact absurd (by simp [Instruction.touches]) untouched
      | _ => rfl
    | loadIndex | addIndex | pointGlyph =>
      cases part with
      | index => exact absurd (List.mem_singleton_self _) untouched
      | _ => rfl
    | clearScreen =>
      cases part with
      | display | redraw => exact absurd (by simp [Instruction.touches]) untouched
      | _ => rfl
    | setDelay =>
      cases part with
      | delay => exact absurd (List.mem_singleton_self _) untouched
      | _ => rfl
    | setSound =>
      cases part with
      | sound => exact absurd (List.mem_singleton_self _) untouched
      | _ => rfl
    | awaitKey =>
      cases part with
      | state => exact absurd (List.mem_singleton_self _) untouched
      | _ => rfl
    -- what is left writes nothing
    | _ => cases part <;> rfl

/-- No entry of the table names the keypad. -/
theorem execute_keypad (m : Machine) (ins : Instruction) :
    (m.execute ins).machine.keypad = m.keypad := by
  have untouched : Part.keypad ∉ ins.touches m.index.address := by
    cases ins <;> simp [Instruction.touches]
  exact execute_same untouched

theorem execute_of_touches_nil (none : ins.touches m.index.address = []) :
    (m.execute ins).machine = m :=
  eq_of_same fun _ => execute_same (none ▸ List.not_mem_nil)

/-! ## Steps -/

/-- The machine with both timers at the end of a cycle. -/
def cycled (m : Machine) (mode : TimerMode) : Machine :=
  { m with delay := m.delay.cycled mode, sound := m.sound.cycled mode }

theorem cycleTimers_eq (m : Machine) : m.cycleTimers.1 = m.cycled m.timerMode := by
  unfold cycleTimers
  split
  next ticks =>
    rw [ticks]
    rfl
  next rests =>
    rw [rests]
    rfl

/-- What a step of a running machine does beside its instruction. -/
theorem machine_of_ran (runs : m.state = .running) (done : (m.step keys).result = .ok s) :
    ∃ flow, ((m.refreshed keys).execute (Instruction.decode m.word)).result = .ok flow
      ∧ s = .ofInstruction (Instruction.decode m.word)
      ∧ (m.step keys).machine =
        (((m.refreshed keys).execute (Instruction.decode m.word)).machine.moved flow).cycled
          m.timerMode := by
  have step := m.stepped keys
  generalize (m.step keys).result = result, (m.step keys).machine = machine at done step ⊢
  cases step with
  | @executed flow _ _ executed =>
    have mode := (m.refreshed keys).execute_timerMode (Instruction.decode m.word)
    refine ⟨flow, executed, (Except.ok.inj done).symm, ?_⟩
    rw [cycleTimers_eq]
    exact congrArg _ mode
  | halted halted => exact absurd (runs.symm.trans halted) RunState.noConfusion
  | waiting waits | received waits => exact absurd (runs.symm.trans waits) RunState.noConfusion
  | ranOff | failed | faulted => cases done

/-- What a step has added to the machine that its instruction left: the program counter is moved
    from where the step found it, the keypad shows the keys of the step, and one cycle is counted. -/
structure Advanced (m : Machine) (keys : KeySource) (flow : Flow) (executed left : Machine) :
    Prop where
  next : flow = .next → left.pc = m.pc + 2
  skip : flow = .skip → left.pc = m.pc + 4
  jump : ∀ addr, flow = .jump addr → left.pc = addr
  keypad : left.keypad = ⟨Vector.ofFn keys⟩
  counted : ∀ clock : Clock, clock.Counted executed 1 left

theorem counted_moved (m : Machine) (flow : Flow) (clock : Clock) :
    clock.Counted m 1 ((m.moved flow).cycled m.timerMode) := by
  apply Clock.Counted.of_cycled
  cases clock with
  | delay | sound => rfl

theorem advanced_of_execute (m : Machine) (keys : KeySource) (ins : Instruction) (flow : Flow) :
    m.Advanced keys flow ((m.refreshed keys).execute ins).machine
      ((((m.refreshed keys).execute ins).machine.moved flow).cycled m.timerMode) := by
  have pc := (m.refreshed keys).execute_pc ins
  have keypad := (m.refreshed keys).execute_keypad ins
  have mode := (m.refreshed keys).execute_timerMode ins
  generalize ((m.refreshed keys).execute ins).machine = executed at pc keypad mode ⊢
  replace keypad := keypad.trans (refresh_eq_ofFn m.keypad keys)
  replace mode : executed.timerMode = m.timerMode := mode
  refine { next := ?_, skip := ?_, jump := ?_, keypad, counted := ?_ }
  · rintro rfl
    exact congrArg (· + 2) pc
  · rintro rfl
    exact congrArg (· + 4) pc
  · rintro addr rfl
    rfl
  · rw [← mode]
    exact executed.counted_moved flow

theorem step_same (runs : m.state = .running) (done : (m.step keys).result = .ok s)
    (untouched : part ∉ (Instruction.decode m.word).touches m.index.address)
    (other : part ∉ [.keypad, .pc, .delay, .sound]) : part.Same m (m.step keys).machine := by
  obtain ⟨flow, _, _, left⟩ := machine_of_ran runs done
  have same : part.Same (m.refreshed keys) _ := execute_same (m := m.refreshed keys) untouched
  rw [left]
  cases part with
  | keypad | pc | delay | sound => exact absurd (by decide) other
  | _ => exact same

/-- An instruction changes at most the parts that it touches, and never the program counter, the
    keypad or the timer mode; one that touches none leaves the machine as it is, and one that draws
    a random byte uses up exactly that byte.  A step that executes an instruction refreshes the
    keypad, does what the instruction does, moves the program counter as it asks for, by two or four
    or to an address, and ticks both timers if its cycle clocks them. -/
theorem touches_no_more (m : Machine) :
    (∀ ins : Instruction,
        (∀ part ∉ ins.touches m.index.address, part.Same m (m.execute ins).machine)
          ∧ (m.execute ins).machine.pc = m.pc
          ∧ (m.execute ins).machine.keypad = m.keypad
          ∧ (m.execute ins).machine.timerMode = m.timerMode
          ∧ (ins.touches m.index.address = [] → (m.execute ins).machine = m)
          ∧ ∀ x kk, ins = .random x kk → (m.execute ins).machine.random = m.random.draw.2)
      ∧ ∀ keys s, m.state = .running → (m.step keys).result = .ok s →
          (∃ flow, ((m.refreshed keys).execute (Instruction.decode m.word)).result = .ok flow
            ∧ s = .ofInstruction (Instruction.decode m.word)
            ∧ (m.step keys).machine =
              (((m.refreshed keys).execute (Instruction.decode m.word)).machine.moved flow).cycled
                m.timerMode
            ∧ m.Advanced keys flow
              ((m.refreshed keys).execute (Instruction.decode m.word)).machine
              (m.step keys).machine)
          ∧ ∀ part ∉ (Instruction.decode m.word).touches m.index.address,
              part ∉ [.keypad, .pc, .delay, .sound] → part.Same m (m.step keys).machine := by
  constructor
  · intro ins
    refine ⟨fun part untouched => execute_same untouched, m.execute_pc ins, m.execute_keypad ins,
      m.execute_timerMode ins, execute_of_touches_nil, ?_⟩
    rintro x kk rfl
    rfl
  · intro keys s runs done
    obtain ⟨flow, executed, answer, left⟩ := machine_of_ran runs done
    have advanced := m.advanced_of_execute keys (Instruction.decode m.word) flow
    rw [← left] at advanced
    refine ⟨⟨flow, executed, answer, left, advanced⟩, ?_⟩
    intro part untouched other
    exact step_same runs done untouched other

/-- A machine that is about to store two registers in the last two cells. -/
def packing : Machine :=
  { fresh (.arithmetic 5 1) with
    memory := (⟨Vector.replicate 4096 0⟩ : Memory).store 0x200 [0xF1, 0x55]
    index := ⟨0xFFE⟩
    delay := ⟨3⟩ }

theorem packing_touches_two_cells :
    (packing.step fun _ => true).result = .ok (.executed (.saveRegisters 1))
      ∧ (packing.step fun _ => true).machine.pc = 0x202
      ∧ (packing.step fun _ => true).machine.keypad.keys = Vector.replicate 16 true
      ∧ (packing.step fun _ => true).machine.memory.cells[0xFFD]? = packing.memory.cells[0xFFD]?
      ∧ (packing.step fun _ => true).machine.registers.cells.get 1 = packing.registers.cells.get 1
      ∧ (packing.step fun _ => true).machine.delay = ⟨2⟩
      ∧ (packing.execute (.skipIfKey 200)).machine = packing
      ∧ (packing.execute (.random 3 0xFF)).machine.random.drawn = 1 := by
  have goes : (packing.step fun _ => true).result = .ok (.executed (.saveRegisters 1))
      ∧ Instruction.decode packing.word = .saveRegisters 1
      ∧ ((packing.refreshed fun _ => true).execute (.saveRegisters 1)).result = .ok .next := by
    decide +kernel
  obtain ⟨answered, decoded, goesOn⟩ := goes
  obtain ⟨instructions, steps⟩ := touches_no_more packing
  obtain ⟨⟨flow, executed, _, left, advanced⟩, kept⟩ := steps _ _ rfl answered
  rw [decoded] at executed left advanced kept
  cases executed.symm.trans goesOn
  have delay : Part.Same (packing.refreshed fun _ => true) _ .delay :=
    (touches_no_more (packing.refreshed fun _ => true)).1 (.saveRegisters 1) |>.1 .delay (by decide)
  refine ⟨answered, advanced.next rfl, congrArg Keypad.keys advanced.keypad,
    kept (.cell 0xFFD) (by decide) (by decide), kept (.register 1) (by decide) (by decide), ?_,
    (instructions _).2.2.2.2.1 rfl, ?_⟩
  · rw [left]
    exact congrArg (Timer.cycled · .perCycle) delay
  · rw [(instructions _).2.2.2.2.2 3 0xFF rfl]
    rfl

end Machine

end Chip8
