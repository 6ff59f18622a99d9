import Chip8.Proofs.Awaiting
import Chip8.Proofs.Checked

/-! # Operands that no word has

An instruction that was not decoded may name any register from 0 to 255 and any address that fits a
word.  Registers are named by their low halves, so for nearly all instructions the upper half of a
name makes no difference, to the machine, to the answer and to the records (`execute_mapRegisters`).
A block of registers is as long as the whole name says, and waiting for a key keeps the whole name
until the key goes into the register.

Three instructions run into a fault for such operands, and `overreaches_iff` says when.
-/

namespace Chip8

namespace Instruction

/-- The instruction with other names for its registers. -/
def mapRegisters (f : UInt8 → UInt8) : Instruction → Instruction
  | .sys addr => .sys addr
  | .clearScreen => .clearScreen
  | .ret => .ret
  | .jump addr => .jump addr
  | .call addr => .call addr
  | .skipIfByte x kk => .skipIfByte (f x) kk
  | .skipUnlessByte x kk => .skipUnlessByte (f x) kk
  | .skipIfSame x y => .skipIfSame (f x) (f y)
  | .loadByte x kk => .loadByte (f x) kk
  | .addByte x kk => .addByte (f x) kk
  | .copy x y => .copy (f x) (f y)
  | .or x y => .or (f x) (f y)
  | .and x y => .and (f x) (f y)
  | .xor x y => .xor (f x) (f y)
  | .add x y => .add (f x) (f y)
  | .sub x y => .sub (f x) (f y)
  | .shiftRight x y => .shiftRight (f x) (f y)
  | .subReverse x y => .subReverse (f x) (f y)
  | .shiftLeft x y => .shiftLeft (f x) (f y)
  | .skipUnlessSame x y => .skipUnlessSame (f x) (f y)
  | .loadIndex addr => .loadIndex addr
  | .jumpOffset addr => .jumpOffset addr
  | .random x kk => .random (f x) kk
  | .draw x y n => .draw (f x) (f y) n
  | .skipIfKey x => .skipIfKey (f x)
  | .skipUnlessKey x => .skipUnlessKey (f x)
  | .readDelay x => .readDelay (f x)
  | .awaitKey x => .awaitKey (f x)
  | .setDelay x => .setDelay (f x)
  | .setSound x => .setSound (f x)
  | .addIndex x => .addIndex (f x)
  | .pointGlyph x => .pointGlyph (f x)
  | .storeDecimal x => .storeDecimal (f x)
  | .saveRegisters x => .saveRegisters (f x)
  | .restoreRegisters x => .restoreRegisters (f x)
  | .unknown word => .unknown word

/-- The instructions that use the whole name of a register: two for the length of a block, one to
    remember it. -/
def usesWholeName : Instruction → Bool
  | .saveRegisters _ | .restoreRegisters _ | .awaitKey _ => true
  | _ => false

end Instruction

theorem nibble_low (r : UInt8) : nibble (r &&& 0xF) = nibble r := by
  apply Fin.ext
  show (r &&& 0xF).toNat % 16 = (nibble r).val
  rw [toNat_low, Nat.mod_eq_of_lt (nibble r).isLt]

theorem Registers.get_of_nibble_eq (v : Registers) {r r' : UInt8} (same : nibble r = nibble r') :
    v.get r = v.get r' := by
  simp only [get, same]

theorem Registers.set_of_nibble_eq (v : Registers) {r r' : UInt8} (same : nibble r = nibble r')
    (value : UInt8) : v.set r value = v.set r' value := by
  simp only [set, same]

namespace Machine

variable {m : Machine} {ins : Instruction} {f : UInt8 → UInt8} {x : UInt8}

/-! ## Names of registers -/

theorem execute_mapRegisters (m : Machine) (low : ∀ r, nibble (f r) = nibble r)
    (short : ins.usesWholeName = false) : m.execute (ins.mapRegisters f) = m.execute ins := by
  have get (r : UInt8) : m.v (f r) = m.v r := m.registers.get_of_nibble_eq (low r)
  have set (r value : UInt8) : m.registers.set (f r) value = m.registers.set r value :=
    m.registers.set_of_nibble_eq (low r) value
  have add (r value : UInt8) : m.registers.add (f r) value = m.registers.add r value := by
    rw [Registers.add, Registers.add, Registers.get_of_nibble_eq _ (low r),
      Registers.set_of_nibble_eq _ (low r)]
  cases ins with
  | saveRegisters | restoreRegisters | awaitKey => cases short
  -- what is left reads and writes single registers
  | _ =>
    simp only [Instruction.mapRegisters, execute, writing, writingFlagged, painting, randomizing,
      get, set, add]

/-! ## Faults -/

/-- The operands of the instruction lead outside a word or outside the registers. -/
def Overreaches (m : Machine) : Instruction → Prop
  | .jumpOffset addr => 65535 < addr.toNat + (m.v 0).toNat
  | .saveRegisters x | .restoreRegisters x =>
    16 ≤ x.toNat ∧ m.index.address + x.toNat + 1 ≤ Memory.size
  | _ => False

theorem overreaches_iff (bounded : m.stack.depth ≤ CallStack.capacity) :
    m.Overreaches ins ↔ ∃ fault, (m.execute ins).result = .error (.fault fault) := by
  simp only [execute_error_iff]
  constructor
  · intro far
    cases ins with
    | jumpOffset addr => exact ⟨_, .jumpOffset far⟩
    | saveRegisters x => exact ⟨_, .saveBeyond far.1 far.2⟩
    | restoreRegisters x => exact ⟨_, .restoreBeyond far.1 far.2⟩
    | _ => exact False.elim far
  · rintro ⟨fault, stops⟩
    cases stops with
    -- the faults of the stack need more addresses on it than it has room for
    | callBeyond beyond | retBeyond beyond => exact absurd bounded (Nat.not_le_of_lt beyond)
    | jumpOffset large => exact large
    | saveBeyond named inside | restoreBeyond named inside => exact ⟨named, inside⟩

/-! ## The register that waits for a key -/

/-- However long no key or several keys are down, the first single key goes into the register, and
    the other registers keep what they held. -/
def TakesKeyInto (m : Machine) (x : UInt8) : Prop :=
  ∀ (before : List KeySource) (keys : KeySource) (k : Fin 16),
    (∀ keys ∈ before, ∀ k, ¬ keys.Only k) → keys.Only k →
      ((m.after (before.map .step)).step keys).result = .ok (.keyReceived (ofNibble k))
        ∧ ((m.after (before.map .step)).step keys).machine.registers
          = m.registers.set x (ofNibble k)
        ∧ ((m.after (before.map .step)).step keys).machine.v x = ofNibble k
        ∧ ∀ r, nibble r ≠ nibble x →
            ((m.after (before.map .step)).step keys).machine.v r = m.v r

theorem takesKeyInto_low (waits : m.state = .waitingForKey x) : m.TakesKeyInto (x &&& 0xF) := by
  intro before keys k undecided pressed
  -- until then only the keypad and the timers move
  obtain ⟨_, keypad, delay, sound, reached⟩ := after_undecided before waits undecided
  rw [reached]
  have waits' : { m with keypad, delay, sound }.state = .waitingForKey x := waits
  obtain ⟨delay', sound', left⟩ := machine_of_pressed waits' pressed
  refine ⟨?_, ?_, ?_, ?_⟩
  · rw [step_pressed waits' pressed]
    rfl
  · rw [left]
    exact m.registers.set_of_nibble_eq (nibble_low x).symm (ofNibble k)
  · rw [v_of_pressed waits' pressed, if_pos (nibble_low x).symm]
  · intro r other
    rw [nibble_low] at other
    rw [v_of_pressed waits' pressed, if_neg other.symm]
    rfl

/-- An instruction with any operands at all, on a stack within its capacity, runs into a fault
    exactly if it jumps past the last word or takes a block of more registers than there are to or
    from a place in memory where the block fits; otherwise it gives a value or a fatal condition.
    What it does without any check, drawing and pointing at a glyph, is what comes of it with every
    index, shift and sum checked.  Only the low half of a register's name counts, but for the length
    of a block and for waiting: the machine remembers the whole name then, and the key goes into the
    register of its low half. -/
theorem any_operands_execute (m : Machine) (bounded : m.stack.depth ≤ CallStack.capacity)
    (ins : Instruction) :
    ((∃ fault, (m.execute ins).result = .error (.fault fault)) ↔ m.Overreaches ins)
      ∧ (¬ m.Overreaches ins → (∃ flow, (m.execute ins).result = .ok flow)
          ∨ ∃ cause, (m.execute ins).result = .error (.error cause))
      ∧ (∀ (x y : UInt8) (sprite : List UInt8), m.display.plot (m.v x) (m.v y) sprite =
          .ok (m.display.paint (m.v x) (m.v y) sprite))
      ∧ (∀ x, Memory.glyphAddress (m.v x) =
          .ok (Memory.fontBase + (m.v x &&& 0xF).toUInt16 * Memory.glyphLength))
      ∧ (ins.usesWholeName = false →
          m.execute (ins.mapRegisters (· &&& 0xF)) = m.execute ins)
      ∧ ∀ x, ins = .awaitKey x →
          (m.execute (ins.mapRegisters (· &&& 0xF))).result = (m.execute ins).result
            ∧ (m.execute ins).machine = { m with state := .waitingForKey x }
            ∧ (m.execute (ins.mapRegisters (· &&& 0xF))).machine =
              { m with state := .waitingForKey (x &&& 0xF) }
            ∧ (m.execute ins).machine.TakesKeyInto (x &&& 0xF) := by
  refine ⟨(overreaches_iff bounded).symm, ?_, ?_, ?_, execute_mapRegisters m nibble_low, ?_⟩
  · intro within
    cases result : (m.execute ins).result with
    | ok flow => exact .inl ⟨flow, rfl⟩
    | error cause =>
      cases cause with
      | error cause => exact .inr ⟨cause, rfl⟩
      | fault fault => exact absurd ((overreaches_iff bounded).mpr ⟨fault, result⟩) within
  · intro x y sprite
    exact m.display.plot_eq _ _ sprite
  · intro x
    exact Memory.glyphAddress_eq _
  · rintro x rfl
    exact ⟨rfl, rfl, rfl, takesKeyInto_low rfl⟩

/-- A machine with a full stack, 200 in V0 and room for 255 bytes at the index register. -/
def meddling : Machine :=
  { fresh (.arithmetic 0 0) with
    registers := Registers.initial.set 0 200
    index := ⟨0xF01⟩
    stack := { slots := Vector.replicate 16 0x202, depth := 16 } }

theorem meddling_executes :
    meddling.stack.depth ≤ CallStack.capacity
      ∧ (∃ fault, (meddling.execute (.jumpOffset 0xFFFF)).result = .error (.fault fault))
      ∧ (∃ fault, (meddling.execute (.saveRegisters 254)).result = .error (.fault fault))
      ∧ ((∃ flow, (meddling.execute (.saveRegisters 255)).result = .ok flow)
        ∨ ∃ cause, (meddling.execute (.saveRegisters 255)).result = .error (.error cause))
      ∧ meddling.execute (.add 0 5) = meddling.execute (.add 0x30 0x25)
      ∧ (meddling.execute (.awaitKey 0x35)).machine.TakesKeyInto 5 := by
  have bounded : meddling.stack.depth ≤ CallStack.capacity := by decide
  have far : meddling.Overreaches (.jumpOffset 0xFFFF)
      ∧ meddling.Overreaches (.saveRegisters 254)
      ∧ ¬ meddling.Overreaches (.saveRegisters 255) := by
    unfold Overreaches
    decide
  have named : (Instruction.add 0x30 0x25).mapRegisters (· &&& 0xF) = .add 0 5 := by decide
  obtain ⟨jump, _⟩ := any_operands_execute meddling bounded (.jumpOffset 0xFFFF)
  obtain ⟨block, _⟩ := any_operands_execute meddling bounded (.saveRegisters 254)
  obtain ⟨_, outside, _⟩ := any_operands_execute meddling bounded (.saveRegisters 255)
  obtain ⟨_, _, _, _, same, _⟩ := any_operands_execute meddling bounded (.add 0x30 0x25)
  obtain ⟨_, _, _, _, _, waits⟩ := any_operands_execute meddling bounded (.awaitKey 0x35)
  rw [← named]
  exact ⟨bounded, jump.mpr far.1, block.mpr far.2.1, outside far.2.2, same rfl,
    (waits 0x35 rfl).2.2.2⟩

end Machine

end Chip8
