import Chip8.Proofs.Holding

/-! # Blocks of registers in memory

Saved registers come back.  A block of registers that was stored in memory is loaded from there with
the values that it had, whatever happened to the registers in between, and a block that was loaded is
stored where it came from without a change.  The digits of a register are three bytes below ten, and
loading them gives the digits of what the register held, even where they go over that register.
-/

namespace Chip8

/-- A register in front of one with a number below sixteen has its own number, too. -/
theorem nibble_le_of_le {r x : UInt8} (low : r ≤ x) (named : x.toNat < 16) :
    nibble r ≤ nibble x := by
  have below : r.toNat ≤ x.toNat := UInt8.le_iff_toNat_le.mp low
  have own := (nibble_val_eq_iff x).mpr named
  have other := (nibble_val_eq_iff r).mpr (Nat.lt_of_le_of_lt below named)
  show (nibble r).val ≤ (nibble x).val
  omega

theorem nibble_lt_of_lt {r x : UInt8} (above : x < r) (named : r.toNat < 16) :
    nibble x < nibble r := by
  have below : x.toNat < r.toNat := UInt8.lt_iff_toNat_lt.mp above
  have own := (nibble_val_eq_iff r).mpr named
  have other := (nibble_val_eq_iff x).mpr (Nat.lt_trans below named)
  show (nibble x).val < (nibble r).val
  omega

namespace Machine

variable {m : Machine} {x : UInt8} {bytes : List UInt8}

/-! ## What the instructions do with what memory holds -/

theorem length_upTo_of_lt (v : Registers) (named : x.toNat < 16) :
    (v.upTo x).length = x.toNat + 1 := by
  rw [Registers.length_upTo, (nibble_val_eq_iff x).mpr named]

theorem execute_saveRegisters (m : Machine) (named : x.toNat < 16)
    (inside : m.index.address + x.toNat ≤ 0xFFF) :
    m.execute (.saveRegisters x) = .done .next
      { m with memory := m.memory.store m.index.address (m.registers.upTo x) } := by
  have length := length_upTo_of_lt m.registers named
  have fits : m.index.address + (m.registers.upTo x).length ≤ Memory.size := by
    rw [length]
    exact Nat.succ_le_succ inside
  have written := m.memory.overwrite_inside fits
  rw [length] at written
  exact (Ends.savedRegisters written).execute_eq

theorem execute_restoreRegisters (m : Machine) (named : x.toNat < 16)
    (inside : m.index.address + x.toNat ≤ 0xFFF) (length : bytes.length = x.toNat + 1)
    (held : m.memory.Holds m.index.address bytes) :
    ∃ registers, m.registers.overwrite x bytes = .ok registers
      ∧ m.execute (.restoreRegisters x) = .done .next { m with registers } := by
  have fits : m.index.address + bytes.length ≤ Memory.size := by
    rw [length]
    exact Nat.succ_le_succ inside
  have read := Memory.slice_of_holds fits held
  rw [length] at read
  have whole : bytes.length = (nibble x).val + 1 := by
    rw [length, (nibble_val_eq_iff x).mpr named]
  obtain ⟨registers, copied⟩ := m.registers.overwrite_ok whole
  exact ⟨registers, copied, (Ends.restoredRegisters read copied).execute_eq⟩

theorem execute_storeDecimal (m : Machine) (x : UInt8) (inside : m.index.address + 2 ≤ 0xFFF) :
    m.execute (.storeDecimal x) = .done .next
      { m with memory := m.memory.store m.index.address (decimalDigits (m.v x)) } := by
  have fits : m.index.address + (decimalDigits (m.v x)).length ≤ Memory.size :=
    Nat.succ_le_succ inside
  exact (Ends.storedDecimal (m.memory.overwrite_inside fits)).execute_eq

/-! ## Round trips -/

/-- A block that was stored is loaded with the values that it had, into any registers. -/
theorem restore_of_saved (m : Machine) (named : x.toNat < 16)
    (inside : m.index.address + x.toNat ≤ 0xFFF) (registers : Registers) :
    ∃ registers',
      { (m.execute (.saveRegisters x)).machine with registers }.execute (.restoreRegisters x)
          = .done .next { (m.execute (.saveRegisters x)).machine with registers := registers' }
        ∧ (∀ r ≤ x, registers'.get r = m.v r)
        ∧ ∀ r, x < r → r.toNat < 16 → registers'.get r = registers.get r := by
  have length := length_upTo_of_lt m.registers named
  have fits : m.index.address + (m.registers.upTo x).length ≤ Memory.size := by
    rw [length]
    exact Nat.succ_le_succ inside
  rw [execute_saveRegisters m named inside]
  -- the index register has not moved, so the block is read from where it was written
  obtain ⟨registers', copied, executed⟩ := execute_restoreRegisters
    { m with memory := m.memory.store m.index.address (m.registers.upTo x), registers }
    named inside length (m.memory.holds_store fits)
  refine ⟨registers', executed, ?_, ?_⟩
  · intro r low
    have within := nibble_le_of_le low named
    have shown := Registers.get_of_overwrite copied within
    rw [Registers.getElem?_upTo _ within] at shown
    exact Option.some.inj shown
  · intro r above low
    exact Registers.get_of_overwrite_of_gt copied (nibble_lt_of_lt above low)

/-- A block that was loaded is stored without a change. -/
theorem save_of_restored (m : Machine) (named : x.toNat < 16)
    (inside : m.index.address + x.toNat ≤ 0xFFF) :
    ∃ registers, m.execute (.restoreRegisters x) = .done .next { m with registers }
      ∧ { m with registers }.execute (.saveRegisters x) = .done .next { m with registers } := by
  have fits : m.index.address + (x.toNat + 1) ≤ Memory.size := Nat.succ_le_succ inside
  obtain ⟨bytes, read⟩ := m.memory.slice_inside fits
  have held := Memory.holds_of_slice read
  obtain ⟨registers, copied, executed⟩ :=
    execute_restoreRegisters m named inside (Memory.length_of_slice read) held
  refine ⟨registers, executed, ?_⟩
  refine (execute_saveRegisters { m with registers } named inside).trans ?_
  -- the registers are the bytes that memory holds, so storing them changes no cell
  show Outcome.done Flow.next
    { m with registers, memory := m.memory.store m.index.address (registers.upTo x) } = _
  rw [Registers.upTo_of_overwrite copied, Memory.store_of_holds held]

theorem digits_recompose (value : UInt8) :
    (value / 100).toNat < 10 ∧ (value / 10 % 10).toNat < 10 ∧ (value % 10).toNat < 10
      ∧ 100 * (value / 100).toNat + 10 * (value / 10 % 10).toNat + (value % 10).toNat
        = value.toNat := by
  have bound : value.toNat < 256 := value.toNat_lt
  simp only [UInt8.toNat_div, UInt8.toNat_mod, UInt8.reduceToNat]
  omega

/-- The digits of a register are loaded as they were stored, over that register too. -/
theorem digits_of_stored (m : Machine) (x : UInt8) (inside : m.index.address + 2 ≤ 0xFFF) :
    ∃ registers,
      (m.execute (.storeDecimal x)).machine.execute (.restoreRegisters 2)
          = .done .next { (m.execute (.storeDecimal x)).machine with registers }
        ∧ registers.get 0 = m.v x / 100 ∧ registers.get 1 = m.v x / 10 % 10
        ∧ registers.get 2 = m.v x % 10
        ∧ ∀ r, 2 < r → r.toNat < 16 → registers.get r = m.v r := by
  have fits : m.index.address + (decimalDigits (m.v x)).length ≤ Memory.size :=
    Nat.succ_le_succ inside
  rw [execute_storeDecimal m x inside]
  obtain ⟨registers, copied, executed⟩ := execute_restoreRegisters (x := 2)
    { m with memory := m.memory.store m.index.address (decimalDigits (m.v x)) }
    (by decide) inside rfl (m.memory.holds_store fits)
  have digit : ∀ r : UInt8, nibble r ≤ nibble 2 →
      some (registers.get r) = (decimalDigits (m.v x))[(nibble r).val]? :=
    fun r low => Registers.get_of_overwrite copied low
  refine ⟨registers, executed, Option.some.inj (digit 0 (by decide)),
    Option.some.inj (digit 1 (by decide)), Option.some.inj (digit 2 (by decide)), ?_⟩
  intro r above low
  exact Registers.get_of_overwrite_of_gt copied (nibble_lt_of_lt above low)

/-- Saved registers come back.  Wherever a block of registers fits in memory, storing it succeeds
    and writes to no other cell; loading it again succeeds and gives each register of the block the
    value that it had when it was stored, whatever was done to the registers in between, and leaves
    the other registers and everything else alone.  Storing a block where it was just loaded changes
    nothing.  Wherever three bytes fit, storing the digits of a register and loading them gives
    three digits of the number that the register held, and beside these registers and bytes nothing
    changes. -/
theorem saved_registers_come_back (m : Machine) :
    (∀ x : UInt8, x.toNat < 16 → m.index.address + x.toNat ≤ 0xFFF →
        (∃ saved, m.execute (.saveRegisters x) = .done .next saved
          ∧ saved = { m with memory := saved.memory }
          ∧ (∀ a, a < m.index.address ∨ m.index.address + x.toNat < a →
              saved.memory.cells[a]? = m.memory.cells[a]?)
          ∧ ∀ registers, ∃ restored,
              { saved with registers }.execute (.restoreRegisters x) = .done .next restored
                ∧ (∀ r ≤ x, restored.v r = m.v r)
                ∧ (∀ r, x < r → r.toNat < 16 → restored.v r = registers.get r)
                ∧ restored.index = m.index
                ∧ restored = { saved with registers := restored.registers })
          ∧ ∃ restored, m.execute (.restoreRegisters x) = .done .next restored
              ∧ restored.memory = m.memory
              ∧ restored.execute (.saveRegisters x) = .done .next restored)
      ∧ ∀ x : UInt8, m.index.address + 2 ≤ 0xFFF →
          ∃ stored, m.execute (.storeDecimal x) = .done .next stored
            ∧ ∃ loaded, stored.execute (.restoreRegisters 2) = .done .next loaded
              ∧ (loaded.v 0).toNat < 10 ∧ (loaded.v 1).toNat < 10 ∧ (loaded.v 2).toNat < 10
              ∧ 100 * (loaded.v 0).toNat + 10 * (loaded.v 1).toNat + (loaded.v 2).toNat
                  = (m.v x).toNat
              ∧ (∀ r, 2 < r → r.toNat < 16 → loaded.v r = m.v r)
              ∧ (∀ a, a < m.index.address ∨ m.index.address + 2 < a →
                  loaded.memory.cells[a]? = m.memory.cells[a]?)
              ∧ loaded.index = m.index
              ∧ loaded =
                { m with memory := loaded.memory, registers := loaded.registers } := by
  constructor
  · intro x named inside
    have executed := execute_saveRegisters m named inside
    constructor
    · refine ⟨_, executed, rfl, ?_, ?_⟩
      · intro a outside
        apply m.memory.store_outside
        rw [length_upTo_of_lt m.registers named]
        omega
      · intro registers
        obtain ⟨registers', restored, values, others⟩ :=
          restore_of_saved m named inside registers
        rw [executed] at restored
        exact ⟨_, restored, values, others, rfl, rfl⟩
    · obtain ⟨registers, restored, saved⟩ := save_of_restored m named inside
      exact ⟨_, restored, rfl, saved⟩
  · intro x inside
    have executed := execute_storeDecimal m x inside
    obtain ⟨registers, loaded, hundreds, tens, ones, others⟩ := digits_of_stored m x inside
    rw [executed] at loaded
    have digits := digits_recompose (m.v x)
    rw [← hundreds, ← tens, ← ones] at digits
    obtain ⟨small, small', small'', sum⟩ := digits
    refine ⟨_, executed, _, loaded, small, small', small'', sum, others, ?_, rfl, rfl⟩
    intro a outside
    apply m.memory.store_outside
    show a < m.index.address ∨ m.index.address + 3 ≤ a
    omega

/-- A machine with 234 in V2 and the index register on the last three cells. -/
def stowing : Machine :=
  { fresh (.arithmetic 0 0) with
    registers := (Registers.initial.set 0 7).set 2 234
    index := ⟨0xAFFD⟩ }

theorem stowing_comes_back :
    (∃ saved, stowing.execute (.saveRegisters 2) = .done .next saved
        ∧ ∃ restored,
          { saved with registers := Registers.initial.set 3 9 }.execute (.restoreRegisters 2)
              = .done .next restored
            ∧ restored.v 0 = 7 ∧ restored.v 2 = 234 ∧ restored.v 3 = 9
            ∧ restored.index = stowing.index)
      ∧ (∃ restored, stowing.execute (.restoreRegisters 2) = .done .next restored
        ∧ restored.execute (.saveRegisters 2) = .done .next restored)
      ∧ ∃ stored, stowing.execute (.storeDecimal 2) = .done .next stored
        ∧ ∃ loaded, stored.execute (.restoreRegisters 2) = .done .next loaded
          ∧ 100 * (loaded.v 0).toNat + 10 * (loaded.v 1).toNat + (loaded.v 2).toNat = 234
          ∧ loaded.memory.cells[0xFFC]? = stowing.memory.cells[0xFFC]? := by
  obtain ⟨blocks, digits⟩ := saved_registers_come_back stowing
  obtain ⟨⟨saved, storing, _, _, back⟩, restored, loading, _, again⟩ :=
    blocks 2 (by decide) (by decide)
  obtain ⟨returned, reloading, values, others, index, _⟩ := back (Registers.initial.set 3 9)
  obtain ⟨stored, writing, loaded, reading, _, _, _, sum, _, outside, _⟩ := digits 2 (by decide)
  refine ⟨⟨saved, storing, returned, reloading, values 0 (by decide), values 2 (by decide), ?_,
    index⟩, ⟨restored, loading, again⟩, stored, writing, loaded, reading, sum, ?_⟩
  · exact others 3 (by decide) (by decide)
  · exact outside 0xFFC (.inl (by decide))

end Machine

end Chip8
