import Chip8.Proofs.Framing

/-! # What memory holds

A list of bytes lies in memory from an address on when each of the cells there has its byte.  A span
that is read gives the bytes that memory holds there, and a span that is written holds what was
written; so what an instruction does with a block of memory can be told by the bytes, without the
operation that reads or writes them.

Writing what memory holds already changes nothing (`store_of_holds`), and the same goes for the
registers: a block of them is read back as it was written (`upTo_of_overwrite`).
-/

namespace Chip8

namespace Memory

/-- The bytes lie in memory from an address on. -/
def Holds (m : Memory) (addr : Nat) (bytes : List UInt8) : Prop :=
  ∀ i < bytes.length, m.cells[addr + i]? = bytes[i]?

variable {m : Memory} {addr length : Nat} {bytes bytes' : List UInt8}

theorem Holds.unique (held : m.Holds addr bytes) (held' : m.Holds addr bytes')
    (same : bytes.length = bytes'.length) : bytes = bytes' := by
  apply List.ext_getElem?
  intro i
  by_cases reached : i < bytes.length
  · rw [← held i reached, held' i (same ▸ reached)]
  · rw [List.getElem?_eq_none (by omega), List.getElem?_eq_none (by omega)]

theorem slice_eq (m : Memory) (inside : addr + length ≤ size) :
    m.slice addr length = .ok ((List.range' addr length).map fun a => m.cells[a]?.getD 0) := by
  rw [slice, checkSpan_inside inside]
  rfl

theorem holds_of_slice (read : m.slice addr length = .ok bytes) : m.Holds addr bytes := by
  have inside := m.inside_of_slice read
  rw [slice_eq m inside] at read
  cases read
  intro i reached
  rw [List.length_map, List.length_range'] at reached
  have here : addr + i < size := by omega
  rw [List.getElem?_map, List.getElem?_range' reached, Vector.getElem?_eq_getElem here]
  simp [here]

theorem slice_of_holds (inside : addr + bytes.length ≤ size) (held : m.Holds addr bytes) :
    m.slice addr bytes.length = .ok bytes := by
  obtain ⟨bytes', read⟩ := m.slice_inside inside
  rw [read, (holds_of_slice read).unique held (length_of_slice read)]

theorem holds_store (m : Memory) (inside : addr + bytes.length ≤ size) :
    (m.store addr bytes).Holds addr bytes := by
  intro i reached
  have here : addr + i < size := by omega
  have covered : addr ≤ addr + i ∧ addr + i < addr + bytes.length := by omega
  rw [getElem?_store m addr bytes here, if_pos covered, Nat.add_sub_cancel_left]

theorem store_of_holds (held : m.Holds addr bytes) : m.store addr bytes = m := by
  refine congrArg Memory.mk (Vector.ext fun a bound => Option.some.inj ?_)
  rw [← Vector.getElem?_eq_getElem bound, ← Vector.getElem?_eq_getElem bound]
  refine (getElem?_store m addr bytes bound).trans ?_
  split
  next covered =>
    rw [← held (a - addr) (by omega), Nat.add_sub_cancel' covered.1]
  next => rfl

theorem overwrite_inside (m : Memory) (inside : addr + bytes.length ≤ size) :
    m.overwrite addr bytes.length bytes = .ok (m.store addr bytes) := by
  rw [overwrite, checkSpan_inside inside]
  exact if_pos rfl

end Memory

namespace Registers

variable {v v' : Registers} {last r : UInt8} {values : List UInt8}

theorem getElem?_upTo (v : Registers) (low : nibble r ≤ nibble last) :
    (v.upTo last)[(nibble r).val]? = some (v.get r) := by
  have reached : (nibble r).val < (nibble last).val + 1 := Nat.lt_succ_of_le low
  rw [upTo, List.getElem?_take, if_pos reached, Vector.getElem?_toList]
  exact Vector.getElem?_eq_getElem (nibble r).isLt

theorem overwrite_ok (v : Registers) (length : values.length = (nibble last).val + 1) :
    ∃ v', v.overwrite last values = .ok v' := by
  rw [overwrite, if_pos length]
  exact ⟨_, rfl⟩

theorem get_of_overwrite (copied : v.overwrite last values = .ok v')
    (low : nibble r ≤ nibble last) : some (v'.get r) = values[(nibble r).val]? := by
  unfold overwrite at copied
  split at copied
  next length =>
    cases copied
    have reached : (nibble r).val < values.length := by
      rw [length]
      exact Nat.lt_succ_of_le low
    rw [List.getElem?_eq_getElem reached]
    -- the block starts at the first register
    refine congrArg some ((getElem_writeBlock v.cells 0 values _ (nibble r).isLt).trans ?_)
    rw [if_pos (Nat.zero_le _), Nat.sub_zero, List.getElem?_eq_getElem reached]
    rfl
  next => cases copied

theorem get_of_overwrite_of_gt (copied : v.overwrite last values = .ok v')
    (behind : nibble last < nibble r) : v'.get r = v.get r :=
  Machine.cells_overwrite_of_gt copied behind

theorem length_of_overwrite (copied : v.overwrite last values = .ok v') :
    values.length = (nibble last).val + 1 := by
  unfold overwrite at copied
  split at copied
  next length => exact length
  next => cases copied

theorem upTo_of_overwrite (copied : v.overwrite last values = .ok v') : v'.upTo last = values := by
  have length := length_of_overwrite copied
  apply List.ext_getElem?
  intro k
  by_cases low : k ≤ (nibble last).val
  · -- the place `k` is the register of that number
    have bound : k < 16 := Nat.lt_of_le_of_lt low (nibble last).isLt
    have named : nibble (ofNibble ⟨k, bound⟩) = ⟨k, bound⟩ := nibble_ofNibble _
    have within : nibble (ofNibble ⟨k, bound⟩) ≤ nibble last := by
      rw [named]
      exact low
    have shown := (getElem?_upTo v' within).trans (get_of_overwrite copied within)
    rw [named] at shown
    exact shown
  · rw [List.getElem?_eq_none (by rw [length_upTo]; omega), List.getElem?_eq_none (by omega)]

end Registers

end Chip8
