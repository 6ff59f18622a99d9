import Chip8.Machine.Execute
import Chip8.Proofs.Spans

/-! # What one instruction can do

`Machine.Stops` lists every way in which an instruction ends without a value, fatal conditions and
faults alike; `execute_error_iff` says that the list is exact, and `machine_of_error` that the
machine is then left alone.  `Machine.Ends` inverts the execution of any instruction, and every
later fact about what instructions keep is read off it and never off `execute`.
-/

namespace Chip8

/-! ## The call stack -/

namespace CallStack

theorem push_error_iff (s : CallStack) (addr pc : UInt16) (cause : Stop) :
    s.push addr pc = .error cause ↔
      s.depth = capacity ∧ cause = .error (.stackOverflow pc)
        ∨ capacity < s.depth ∧ cause = .fault .indexOutOfRange := by
  unfold push
  split
  next full => simp [full, eq_comm]
  next notFull =>
    split
    next room =>
      have below : ¬ capacity < s.depth := by simp only [capacity]; omega
      simp [notFull, below]
    next noRoom =>
      have beyond : capacity < s.depth := by simp only [capacity] at notFull ⊢; omega
      simp [notFull, beyond, eq_comm]

theorem pop_error_iff (s : CallStack) (pc : UInt16) (cause : Stop) :
    s.pop pc = .error cause ↔
      s.depth = 0 ∧ cause = .error (.stackUnderflow pc)
        ∨ capacity < s.depth ∧ cause = .fault .indexOutOfRange := by
  unfold pop
  split
  next empty => simp [empty, eq_comm]
  next used =>
    split
    next room =>
      have below : ¬ capacity < s.depth := by simp only [capacity]; omega
      simp [used, below]
    next noRoom =>
      have beyond : capacity < s.depth := by simp only [capacity]; omega
      simp [used, beyond, eq_comm]

theorem depth_of_push {s t : CallStack} {addr pc : UInt16} (pushed : s.push addr pc = .ok t) :
    t.depth = s.depth + 1 ∧ s.depth < capacity := by
  unfold push at pushed
  split at pushed
  next => cases pushed
  next =>
    split at pushed
    next room =>
      cases pushed
      exact ⟨rfl, room⟩
    next => cases pushed

theorem depth_of_pop {s t : CallStack} {addr pc : UInt16} (popped : s.pop pc = .ok (addr, t)) :
    s.depth = t.depth + 1 := by
  unfold pop at popped
  split at popped
  next => cases popped
  next used =>
    split at popped
    next =>
      cases popped
      exact (Nat.succ_pred used).symm
    next => cases popped

end CallStack

/-! ## Registers in a block -/

theorem Registers.length_upTo (v : Registers) (last : UInt8) :
    (v.upTo last).length = (nibble last).val + 1 := by
  have low := (nibble last).isLt
  simp only [upTo, List.length_take, Vector.length_toList]
  omega

theorem Registers.overwrite_error_iff (v : Registers) (last : UInt8) (values : List UInt8)
    (cause : Fault) :
    v.overwrite last values = .error cause ↔
      values.length ≠ (nibble last).val + 1 ∧ cause = .lengthMismatch := by
  unfold overwrite
  split
  next same => simp [same]
  next differ => simp [differ, eq_comm]

theorem nibble_val_eq_iff (r : UInt8) : (nibble r).val = r.toNat ↔ r.toNat < 16 := by
  simp only [nibble]
  omega

theorem toNat_low (r : UInt8) : (r &&& 0xF).toNat = (nibble r).val := by
  rw [UInt8.toNat_and]
  exact Nat.and_two_pow_sub_one_eq_mod r.toNat 4

/-- The instructions that do not say themselves where to go on. -/
def Instruction.Straight : Instruction → Prop
  | .jump _ | .call _ | .ret | .jumpOffset _ => False
  | _ => True

/-- The instructions that always give a value. -/
def Instruction.Succeeds : Instruction → Prop
  | .call _ | .ret | .draw .. | .jumpOffset _ | .storeDecimal _ | .saveRegisters _
  | .restoreRegisters _ => False
  | _ => True

namespace Machine

/-! ## How an instruction ends -/

/-- The ways in which an instruction ends without a value: first the fatal conditions of the
    program, then the faults, which only operands and stacks outside their ranges run into. -/
inductive Stops (m : Machine) : Instruction → Stop → Prop
  | overflow {addr} (full : m.stack.depth = CallStack.capacity) :
      m.Stops (.call addr) (.error (.stackOverflow m.pc))
  | underflow (empty : m.stack.depth = 0) : m.Stops .ret (.error (.stackUnderflow m.pc))
  | draw {x y n} (outside : Memory.size < m.index.address + n.toNat) :
      m.Stops (.draw x y n) (.error (.memoryOutOfBounds (m.index.address + n.toNat - 1)))
  | storeDecimal {x} (outside : Memory.size < m.index.address + 3) :
      m.Stops (.storeDecimal x) (.error (.memoryOutOfBounds (m.index.address + 2)))
  | saveRegisters {x} (outside : Memory.size < m.index.address + (x.toNat + 1)) :
      m.Stops (.saveRegisters x) (.error (.memoryOutOfBounds (m.index.address + x.toNat)))
  | restoreRegisters {x} (outside : Memory.size < m.index.address + (x.toNat + 1)) :
      m.Stops (.restoreRegisters x) (.error (.memoryOutOfBounds (m.index.address + x.toNat)))
  | callBeyond {addr} (beyond : CallStack.capacity < m.stack.depth) :
      m.Stops (.call addr) (.fault .indexOutOfRange)
  | retBeyond (beyond : CallStack.capacity < m.stack.depth) :
      m.Stops .ret (.fault .indexOutOfRange)
  | jumpOffset {addr} (large : UInt16.size ≤ addr.toNat + (m.v 0).toNat) :
      m.Stops (.jumpOffset addr) (.fault .overflow)
  | saveBeyond {x} (named : 16 ≤ x.toNat) (inside : m.index.address + (x.toNat + 1) ≤ Memory.size) :
      m.Stops (.saveRegisters x) (.fault .lengthMismatch)
  | restoreBeyond {x} (named : 16 ≤ x.toNat)
      (inside : m.index.address + (x.toNat + 1) ≤ Memory.size) :
      m.Stops (.restoreRegisters x) (.fault .lengthMismatch)

/-- The endings of an instruction: stopped without a trace, or what each of the instructions that
    can fail gives when it does not, or anything else. -/
inductive Ends (m : Machine) : Instruction → Outcome Flow → Prop
  | stopped {ins cause} (stops : m.Stops ins cause) : m.Ends ins (.stopped cause m)
  | called {addr stack} (pushed : m.stack.push (m.pc + 2) m.pc = .ok stack) :
      m.Ends (.call addr) (.done (.jump addr) { m with stack })
  | returned {addr stack} (popped : m.stack.pop m.pc = .ok (addr, stack)) :
      m.Ends .ret (.done (.jump addr) { m with stack })
  | drawn {x y n sprite} (read : m.memory.slice m.index.address n.toNat = .ok sprite) :
      m.Ends (.draw x y n) (.done .next { m with
        display := (m.display.paint (m.v x) (m.v y) sprite).1
        registers := m.registers.setFlag (m.display.paint (m.v x) (m.v y) sprite).2
        redraw := true })
  | jumped {addr} (fits : addr.toNat + (m.v 0).toNat < UInt16.size) :
      m.Ends (.jumpOffset addr) (.done (.jump (addr + (m.v 0).toUInt16)) m)
  | storedDecimal {x memory}
      (written : m.memory.overwrite m.index.address 3 (decimalDigits (m.v x)) = .ok memory) :
      m.Ends (.storeDecimal x) (.done .next { m with memory })
  | savedRegisters {x memory} (written :
        m.memory.overwrite m.index.address (x.toNat + 1) (m.registers.upTo x) = .ok memory) :
      m.Ends (.saveRegisters x) (.done .next { m with memory })
  | restoredRegisters {x bytes registers}
      (read : m.memory.slice m.index.address (x.toNat + 1) = .ok bytes)
      (copied : m.registers.overwrite x bytes = .ok registers) :
      m.Ends (.restoreRegisters x) (.done .next { m with registers })
  | other {ins} (succeeds : ins.Succeeds) : m.Ends ins (m.execute ins)

variable {m : Machine} {ins : Instruction} {cause : Stop} {flow : Flow} {stack : CallStack}

theorem execute_of_stops (stops : m.Stops ins cause) : m.execute ins = .stopped cause m := by
  cases stops with
  | @overflow addr full =>
    show m.calling addr = _
    rw [calling, (m.stack.push_error_iff ..).mpr (.inl ⟨full, rfl⟩)]
  | @callBeyond addr beyond =>
    show m.calling addr = _
    rw [calling, (m.stack.push_error_iff ..).mpr (.inr ⟨beyond, rfl⟩)]
  | underflow empty =>
    show m.returning = _
    rw [returning, (m.stack.pop_error_iff ..).mpr (.inl ⟨empty, rfl⟩)]
  | retBeyond beyond =>
    show m.returning = _
    rw [returning, (m.stack.pop_error_iff ..).mpr (.inr ⟨beyond, rfl⟩)]
  | @draw x y n outside =>
    have short : n.toNat ≤ 256 := Nat.le_of_lt n.toNat_lt
    show m.painting x y n = _
    rw [painting, (m.memory.slice_error_iff m.index short _).mpr ⟨outside, rfl⟩]
  | @storeDecimal x outside =>
    show m.storing _ = _
    rw [(m.memory.overwrite_error_iff m.index (by decide) _ _).mpr (.inl ⟨outside, rfl⟩)]
    rfl
  | @saveRegisters x outside =>
    have short : x.toNat + 1 ≤ 256 := x.toNat_lt
    show m.storing _ = _
    rw [(m.memory.overwrite_error_iff m.index short _ _).mpr (.inl ⟨outside, rfl⟩)]
    rfl
  | @saveBeyond x named inside =>
    have short : x.toNat + 1 ≤ 256 := x.toNat_lt
    -- the registers end at VF, so a block that is to end behind it comes out too short
    have differ : (m.registers.upTo x).length ≠ x.toNat + 1 := by
      have own := nibble_val_eq_iff x
      rw [Registers.length_upTo]
      omega
    show m.storing _ = _
    rw [(m.memory.overwrite_error_iff m.index short _ _).mpr (.inr ⟨inside, differ, rfl⟩)]
    rfl
  | @restoreRegisters x outside =>
    have short : x.toNat + 1 ≤ 256 := x.toNat_lt
    show m.restoring x = _
    rw [restoring, (m.memory.slice_error_iff m.index short _).mpr ⟨outside, rfl⟩]
    rfl
  | @restoreBeyond x named inside =>
    obtain ⟨bytes, read⟩ := m.memory.slice_inside inside
    have differ : bytes.length ≠ (nibble x).val + 1 := by
      have own := nibble_val_eq_iff x
      rw [Memory.length_of_slice read]
      omega
    show m.restoring x = _
    rw [restoring, read]
    dsimp only
    rw [(m.registers.overwrite_error_iff x bytes _).mpr ⟨differ, rfl⟩]
  | @jumpOffset addr large =>
    show m.jumpingOffset addr = _
    rw [jumpingOffset, if_neg (Nat.not_lt_of_le large)]

theorem ends (m : Machine) (ins : Instruction) : m.Ends ins (m.execute ins) := by
  cases ins with
  | call addr =>
    show m.Ends _ (m.calling addr)
    unfold calling
    cases pushed : m.stack.push (m.pc + 2) m.pc with
    | error cause =>
      rcases (m.stack.push_error_iff ..).mp pushed with ⟨full, rfl⟩ | ⟨beyond, rfl⟩
      · exact .stopped (.overflow full)
      · exact .stopped (.callBeyond beyond)
    | ok stack => exact .called pushed
  | ret =>
    show m.Ends _ m.returning
    unfold returning
    cases popped : m.stack.pop m.pc with
    | error cause =>
      rcases (m.stack.pop_error_iff ..).mp popped with ⟨empty, rfl⟩ | ⟨beyond, rfl⟩
      · exact .stopped (.underflow empty)
      · exact .stopped (.retBeyond beyond)
    | ok rest => exact .returned popped
  | draw x y n =>
    have short : n.toNat ≤ 256 := Nat.le_of_lt n.toNat_lt
    show m.Ends _ (m.painting x y n)
    unfold painting
    cases read : m.memory.slice m.index.address n.toNat with
    | error cause =>
      obtain ⟨outside, rfl⟩ := (m.memory.slice_error_iff m.index short cause).mp read
      exact .stopped (.draw outside)
    | ok sprite => exact .drawn read
  | jumpOffset addr =>
    show m.Ends _ (m.jumpingOffset addr)
    unfold jumpingOffset
    split
    next fits => exact .jumped fits
    next large => exact .stopped (.jumpOffset (Nat.le_of_not_lt large))
  | storeDecimal x =>
    show m.Ends _ (m.storing _)
    cases written : m.memory.overwrite m.index.address 3 (decimalDigits (m.v x)) with
    | error cause =>
      rcases (m.memory.overwrite_error_iff m.index (by decide) _ cause).mp written with
        ⟨outside, rfl⟩ | ⟨_, differ, _⟩
      · exact .stopped (.storeDecimal outside)
      · exact absurd rfl differ
    | ok memory => exact .storedDecimal written
  | saveRegisters x =>
    have short : x.toNat + 1 ≤ 256 := x.toNat_lt
    show m.Ends _ (m.storing _)
    cases written : m.memory.overwrite m.index.address (x.toNat + 1) (m.registers.upTo x) with
    | error cause =>
      rcases (m.memory.overwrite_error_iff m.index short _ cause).mp written with
        ⟨outside, rfl⟩ | ⟨inside, differ, rfl⟩
      · exact .stopped (.saveRegisters outside)
      · have own := nibble_val_eq_iff x
        rw [Registers.length_upTo] at differ
        exact .stopped (.saveBeyond (by omega) inside)
    | ok memory => exact .savedRegisters written
  | restoreRegisters x =>
    have short : x.toNat + 1 ≤ 256 := x.toNat_lt
    show m.Ends _ (m.restoring x)
    unfold restoring
    cases read : m.memory.slice m.index.address (x.toNat + 1) with
    | error cause =>
      obtain ⟨outside, rfl⟩ := (m.memory.slice_error_iff m.index short cause).mp read
      exact .stopped (.restoreRegisters outside)
    | ok bytes =>
      dsimp only
      cases copied : m.registers.overwrite x bytes with
      | error cause =>
        obtain ⟨differ, rfl⟩ := (m.registers.overwrite_error_iff x bytes cause).mp copied
        have own := nibble_val_eq_iff x
        have inside := m.memory.inside_of_slice read
        rw [Memory.length_of_slice read] at differ
        exact .stopped (.restoreBeyond (by omega) inside)
      | ok registers => exact .restoredRegisters read copied
  -- no other instruction looks at anything before it writes
  | _ => exact .other trivial

/-- An instruction ends in the way that is told of it. -/
theorem Ends.execute_eq {o : Outcome Flow} (told : m.Ends ins o) : m.execute ins = o := by
  cases told with
  | stopped stops => exact execute_of_stops stops
  | @called addr stack pushed =>
    show m.calling addr = _
    rw [calling, pushed]
  | returned popped =>
    show m.returning = _
    rw [returning, popped]
  | @drawn x y n sprite read =>
    show m.painting x y n = _
    rw [painting, read]
  | @jumped addr fits =>
    show m.jumpingOffset addr = _
    rw [jumpingOffset, if_pos fits]
  | storedDecimal written | savedRegisters written =>
    show m.storing _ = _
    rw [written]
    rfl
  | @restoredRegisters x bytes registers read copied =>
    show m.restoring x = _
    rw [restoring, read]
    dsimp only
    rw [copied]
  | other => rfl

/-- An instruction ends without a value in exactly the listed ways. -/
theorem execute_error_iff : (m.execute ins).result = .error cause ↔ m.Stops ins cause := by
  constructor
  · intro stopped
    have ended := m.ends ins
    generalize m.execute ins = o at stopped ended
    cases ended with
    | stopped stops =>
      cases stopped
      exact stops
    | other succeeds => cases ins <;> first | exact False.elim succeeds | cases stopped
    | _ => cases stopped
  · intro stops
    rw [execute_of_stops stops]
    rfl

theorem machine_of_error (stopped : (m.execute ins).result = .error cause) :
    (m.execute ins).machine = m := by
  rw [execute_of_stops (execute_error_iff.mp stopped)]
  rfl

/-- Which way an instruction ends without a value hangs only on the stack, the program counter, the
    index register and the registers. -/
theorem Stops.transfer {m' : Machine} (stops : m.Stops ins cause) (stack : m'.stack = m.stack)
    (pc : m'.pc = m.pc) (index : m'.index = m.index) (registers : m'.registers = m.registers) :
    m'.Stops ins cause := by
  have v : m'.v 0 = m.v 0 := by rw [Machine.v, registers, Machine.v]
  cases stops with
  | overflow full => exact pc ▸ .overflow (stack ▸ full)
  | underflow empty => exact pc ▸ .underflow (stack ▸ empty)
  | draw outside => exact index ▸ .draw (index ▸ outside)
  | storeDecimal outside => exact index ▸ .storeDecimal (index ▸ outside)
  | saveRegisters outside => exact index ▸ .saveRegisters (index ▸ outside)
  | restoreRegisters outside => exact index ▸ .restoreRegisters (index ▸ outside)
  | callBeyond beyond => exact .callBeyond (stack ▸ beyond)
  | retBeyond beyond => exact .retBeyond (stack ▸ beyond)
  | jumpOffset large => exact .jumpOffset (v ▸ large)
  | saveBeyond named inside => exact .saveBeyond named (index ▸ inside)
  | restoreBeyond named inside => exact .restoreBeyond named (index ▸ inside)

/-! ## Where an instruction goes -/

/-- Where an instruction that gives a value goes, and the call stack that it leaves. -/
inductive Control (m : Machine) : Instruction → Flow → CallStack → Prop
  | straight {i : Instruction} {f : Flow} (straight : i.Straight) (forward : f = .next ∨ f = .skip) :
      m.Control i f m.stack
  | jump {addr} : m.Control (.jump addr) (.jump addr) m.stack
  | jumpOffset {addr} (fits : addr.toNat + (m.v 0).toNat < UInt16.size) :
      m.Control (.jumpOffset addr) (.jump (addr + (m.v 0).toUInt16)) m.stack
  | call {addr stack} (pushed : m.stack.push (m.pc + 2) m.pc = .ok stack) :
      m.Control (.call addr) (.jump addr) stack
  | ret {addr stack} (popped : m.stack.pop m.pc = .ok (addr, stack)) :
      m.Control .ret (.jump addr) stack

theorem skipIf_forward (condition : Bool) :
    Flow.skipIf condition = .next ∨ Flow.skipIf condition = .skip := by
  cases condition with
  | false => exact .inl rfl
  | true => exact .inr rfl

theorem control (done : (m.execute ins).result = .ok flow) :
    m.Control ins flow (m.execute ins).machine.stack := by
  have ended := m.ends ins
  generalize m.execute ins = o at done ended ⊢
  cases ended with
  | stopped => cases done
  | called pushed =>
    cases done
    exact .call pushed
  | returned popped =>
    cases done
    exact .ret popped
  | jumped fits =>
    cases done
    exact .jumpOffset fits
  | drawn | storedDecimal | savedRegisters | restoredRegisters =>
    cases done
    exact .straight trivial (.inl rfl)
  | other succeeds =>
    cases ins with
    | jump addr =>
      cases done
      exact .jump
    | call | ret | draw | jumpOffset | storeDecimal | saveRegisters | restoreRegisters =>
      exact False.elim succeeds
    | skipIfByte | skipUnlessByte | skipIfSame | skipUnlessSame | skipIfKey | skipUnlessKey =>
      cases done
      exact .straight trivial (skipIf_forward _)
    | _ =>
      cases done
      exact .straight trivial (.inl rfl)

/-- Moving on does not wrap around. -/
theorem toNat_add_forward {pc : UInt16} (low : pc.toNat ≤ 0x10FE) :
    (pc + 2).toNat = pc.toNat + 2 ∧ (pc + 4).toNat = pc.toNat + 4 := by
  simp only [UInt16.toNat_add, UInt16.reduceToNat]
  omega

def aim (m : Machine) : Instruction → Option UInt16
  | .jump addr | .call addr => some addr
  | .jumpOffset addr => some (addr + (m.v 0).toUInt16)
  | _ => none

/-- The program counter moves on, or to where the instruction aims, or to a return address. -/
theorem Control.goes (went : m.Control ins flow stack) :
    flow.move m.pc = m.pc + 2 ∨ flow.move m.pc = m.pc + 4 ∨ m.aim ins = some (flow.move m.pc)
      ∨ flow.move m.pc ∈ m.stack.live := by
  cases went with
  | straight _ forward =>
    rcases forward with rfl | rfl
    · exact .inl rfl
    · exact .inr (.inl rfl)
  | jump | jumpOffset | call => exact .inr (.inr (.inl rfl))
  | ret popped =>
    rw [CallStack.live_pop popped]
    exact .inr (.inr (.inr (List.mem_cons_self ..)))

/-- The one return address that can be new is the one behind the instruction. -/
theorem Control.mem_live (went : m.Control ins flow stack) {a : UInt16} (member : a ∈ stack.live) :
    a ∈ m.stack.live ∨ a = m.pc + 2 := by
  cases went with
  | straight | jump | jumpOffset => exact .inl member
  | call pushed =>
    rw [CallStack.live_push pushed] at member
    cases member with
    | head => exact .inr rfl
    | tail _ older => exact .inl older
  | ret popped =>
    rw [CallStack.live_pop popped]
    exact .inl (List.mem_cons_of_mem _ member)

theorem Control.depth_le (went : m.Control ins flow stack)
    (bounded : m.stack.depth ≤ CallStack.capacity) : stack.depth ≤ CallStack.capacity := by
  cases went with
  | straight | jump | jumpOffset => exact bounded
  | call pushed =>
    -- a call finds a slot that is free
    obtain ⟨deeper, room⟩ := CallStack.depth_of_push pushed
    omega
  | ret popped =>
    have shallower := CallStack.depth_of_pop popped
    omega

/-! ## What an instruction leaves alone -/

theorem execute_pc (m : Machine) (ins : Instruction) : (m.execute ins).machine.pc = m.pc := by
  have ended := m.ends ins
  generalize m.execute ins = o at ended ⊢
  cases ended with
  | other succeeds => cases ins <;> first | exact False.elim succeeds | rfl
  | _ => rfl

/-- Waiting for a key is the one way in which an instruction changes what the machine is doing, and
    then it changes nothing else. -/
theorem execute_state (m : Machine) (ins : Instruction) :
    (m.execute ins).machine.state = m.state
      ∨ ∃ x, ins = .awaitKey x ∧ (m.execute ins).machine = { m with state := .waitingForKey x } := by
  have ended := m.ends ins
  generalize m.execute ins = o at ended ⊢
  cases ended with
  | other succeeds =>
    cases ins with
    | awaitKey x => exact .inr ⟨x, rfl, rfl⟩
    | _ => exact .inl (by first | exact False.elim succeeds | rfl)
  | _ => exact .inl rfl

theorem pointAt_le (addr : UInt16) : (IndexRegister.pointAt addr).raw.toNat ≤ 0xFFF := by
  have masked : (addr &&& IndexRegister.addressMask).toNat ≤ IndexRegister.addressMask.toNat := by
    rw [UInt16.toNat_and]
    exact Nat.and_le_right
  exact masked

theorem execute_index_le (m : Machine) (ins : Instruction) (low : m.index.raw.toNat ≤ 0xFFF) :
    (m.execute ins).machine.index.raw.toNat ≤ 0xFFF := by
  have ended := m.ends ins
  generalize m.execute ins = o at ended ⊢
  cases ended with
  | other succeeds =>
    cases ins with
    | loadIndex | addIndex | pointGlyph => exact pointAt_le _
    | _ => first | exact False.elim succeeds | exact low
  | _ => exact low

end Machine

end Chip8
