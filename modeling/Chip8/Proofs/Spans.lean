import Chip8.Memory
import Chip8.Registers

/-! # Reaching into memory

When an access is in bounds, what it gives, and at which address it is reported when it is not.
Spans that start at the index register are short enough never to leave 64 bits, so of the three
outcomes of `checkSpan` only two are left for them.
-/

namespace Chip8

/-- The address in an index register is the address of a cell. -/
theorem IndexRegister.address_lt (i : IndexRegister) : i.address < Memory.size := by
  have masked : (i.raw &&& addressMask).toNat ≤ addressMask.toNat := by
    rw [UInt16.toNat_and]
    exact Nat.and_le_right
  exact Nat.lt_of_le_of_lt masked (by decide)

namespace Memory

/-! ## Words -/

/-- The word at an address, high byte first; what lies past the last cell counts as zero. -/
def word (m : Memory) (addr : Nat) : UInt16 :=
  UInt16.ofNat (256 * (m.cells[addr]?.getD 0).toNat + (m.cells[addr + 1]?.getD 0).toNat)

theorem joined_bytes (high low : UInt8) :
    (high.toUInt16 <<< 8) ||| low.toUInt16 = UInt16.ofNat (256 * high.toNat + low.toNat) := by
  have highBound : high.toNat < 256 := high.toNat_lt
  have lowBound : low.toNat < 256 := low.toNat_lt
  have shifted : (high.toUInt16 <<< 8).toNat = high.toNat <<< 8 := by
    simp only [UInt16.toNat_shiftLeft, UInt8.toNat_toUInt16, Nat.shiftLeft_eq, UInt16.reduceToNat,
      Nat.reduceMod, Nat.reducePow]
    omega
  apply UInt16.toNat_inj.mp
  rw [UInt16.toNat_or, shifted, UInt8.toNat_toUInt16, ← Nat.shiftLeft_add_eq_or_of_lt lowBound,
    UInt16.toNat_ofNat', Nat.shiftLeft_eq]
  omega

theorem get_inside (m : Memory) {addr : Nat} (inside : addr < size) :
    m.get addr = .ok (m.cells[addr]?.getD 0) := by
  rw [get, dif_pos inside, Vector.getElem?_eq_getElem inside, Option.getD_some]

theorem readWord_inside (m : Memory) {addr : UInt16} (inside : addr.toNat + 1 < size) :
    m.readWord addr = .ok (m.word addr.toNat) := by
  have first : addr.toNat < size := by omega
  rw [readWord, get_inside m first, get_inside m inside, word, ← joined_bytes]
  rfl

/-! ## Spans -/

theorem checkSpan_inside {addr length : Nat} (inside : addr + length ≤ size) :
    checkSpan addr length = .ok () := by
  have fits : ¬ UInt64.size ≤ addr + length := by
    simp only [size, UInt64.size] at inside ⊢
    omega
  rw [checkSpan, if_neg fits, if_pos inside]

theorem checkSpan_outside {addr length : Nat} (outside : size < addr + length)
    (fits : addr + length < UInt64.size) :
    checkSpan addr length = .error (.error (.memoryOutOfBounds (addr + length - 1))) := by
  rw [checkSpan, if_neg (Nat.not_le_of_lt fits), if_neg (Nat.not_le_of_lt outside)]

/-- A span from the index register on does not leave 64 bits if it is no longer than a byte can
    say, so out of bounds is the only way in which it fails. -/
theorem checkSpan_address (i : IndexRegister) {length : Nat} (short : length ≤ 256) :
    checkSpan i.address length =
      if i.address + length ≤ size then .ok ()
      else .error (.error (.memoryOutOfBounds (i.address + length - 1))) := by
  have low := i.address_lt
  split
  next inside => exact checkSpan_inside inside
  next outside =>
    apply checkSpan_outside (Nat.lt_of_not_le outside)
    simp only [size, UInt64.size] at low ⊢
    omega

/-- A span at the index register cannot be read exactly when it reaches past the last cell. -/
theorem slice_error_iff (m : Memory) (i : IndexRegister) {length : Nat} (short : length ≤ 256)
    (cause : Stop) :
    m.slice i.address length = .error cause ↔
      size < i.address + length ∧
        cause = .error (.memoryOutOfBounds (i.address + length - 1)) := by
  rw [slice, checkSpan_address i short]
  split
  next inside =>
    constructor
    · intro failed
      cases failed
    · intro outside
      exact absurd inside (Nat.not_le_of_lt outside.1)
  next outside =>
    constructor
    · intro failed
      cases failed
      exact ⟨Nat.lt_of_not_le outside, rfl⟩
    · rintro ⟨_, rfl⟩
      rfl

theorem slice_inside (m : Memory) {addr length : Nat} (inside : addr + length ≤ size) :
    ∃ bytes, m.slice addr length = .ok bytes := by
  rw [slice, checkSpan_inside inside]
  exact ⟨_, rfl⟩

theorem inside_of_slice (m : Memory) {addr length : Nat} {bytes : List UInt8}
    (read : m.slice addr length = .ok bytes) : addr + length ≤ size := by
  apply Nat.le_of_not_lt
  intro outside
  unfold slice checkSpan at read
  split at read
  next => cases read
  next =>
    rw [if_neg (Nat.not_le_of_lt outside)] at read
    cases read

theorem length_of_slice {m : Memory} {addr length : Nat} {bytes : List UInt8}
    (read : m.slice addr length = .ok bytes) : bytes.length = length := by
  unfold slice at read
  cases checked : checkSpan addr length with
  | error cause =>
    rw [checked] at read
    cases read
  | ok _ =>
    rw [checked] at read
    cases read
    rw [List.length_map, List.length_range']

/-- A span at the index register cannot be written when it reaches past the last cell, and it is a
    fault to bring bytes of another number. -/
theorem overwrite_error_iff (m : Memory) (i : IndexRegister) {length : Nat} (short : length ≤ 256)
    (bytes : List UInt8) (cause : Stop) :
    m.overwrite i.address length bytes = .error cause ↔
      size < i.address + length ∧
          cause = .error (.memoryOutOfBounds (i.address + length - 1))
        ∨ i.address + length ≤ size ∧ bytes.length ≠ length ∧ cause = .fault .lengthMismatch := by
  rw [overwrite, checkSpan_address i short]
  -- the span is checked first, and the length of the bytes only inside memory
  split
  next inside =>
    have notOutside : ¬ size < i.address + length := Nat.not_lt_of_le inside
    change (if bytes.length = length then Except.ok (m.store i.address bytes)
      else Except.error (Stop.fault .lengthMismatch)) = _ ↔ _
    split
    next same => simp [notOutside, same]
    next differ => simp [notOutside, inside, differ, eq_comm]
  next outside =>
    constructor
    · intro failed
      cases failed
      exact .inl ⟨Nat.lt_of_not_le outside, rfl⟩
    · rintro (⟨_, rfl⟩ | ⟨inside, _⟩)
      · rfl
      · exact absurd inside outside

end Memory

end Chip8
