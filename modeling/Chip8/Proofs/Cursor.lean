import Chip8.Instruction.Digits
import Mathlib.Algebra.Group.Nat.Defs

/-! # The cursor finds what the table says

Reading a word digit by digit never faults, and gives the instruction of the pattern table.

The non-trivial ingredient is `digits_eq`: the shift and the mask cut the same digits out of a word
as division and remainder do.
-/

namespace Chip8

/-- Inside the word, the digits are a quotient by the digits behind, modulo the digits asked for. -/
theorem Word.digits_eq (w : UInt16) {first count : Nat} (inFront : 1 ≤ first)
    (inside : first + count ≤ 5) :
    Word.digits w first count = .ok (w.toNat / 16 ^ (5 - first - count) % 16 ^ count) := by
  have fits : count ≤ 4 := by omega
  have before : first - 1 ≤ 4 - count := by omega
  have behind : 4 - count - (first - 1) = 5 - first - count := by omega
  simp only [Word.digits, Fault.checkedSub, if_pos fits, if_pos inFront, if_pos before, behind,
    bind, Except.bind, pure, Except.pure]
  rw [Nat.one_shiftLeft, Nat.and_two_pow_sub_one_eq_mod, Nat.shiftRight_eq_div_pow, Nat.pow_mul,
    Nat.pow_mul]

/-- Outside the word there are no digits. -/
theorem Word.digits_outside (w : UInt16) {first count : Nat}
    (outside : ¬ (1 ≤ first ∧ first + count ≤ 5)) :
    Word.digits w first count = .error .overflow := by
  by_cases fits : count ≤ 4
  · by_cases inFront : 1 ≤ first
    · have past : ¬ first - 1 ≤ 4 - count := by omega
      simp only [Word.digits, Fault.checkedSub, if_pos fits, if_pos inFront, if_neg past, bind,
        Except.bind]
    · simp only [Word.digits, Fault.checkedSub, if_pos fits, if_neg inFront, bind, Except.bind]
  · simp only [Word.digits, Fault.checkedSub, if_neg fits, bind, Except.bind]

namespace Cursor

theorem take_eq (w : UInt16) {position count last : Nat} (inFront : 1 ≤ position)
    (inside : position + count ≤ 5) (allowed : position ≤ last) :
    take count last ⟨w, position⟩ =
      .ok (w.toNat / 16 ^ (5 - position - count) % 16 ^ count, ⟨w, position + count⟩) := by
  simp only [take, if_pos allowed, Word.digits_eq w inFront inside, bind, Except.bind, pure,
    Except.pure]

theorem family_start (w : UInt16) : family (start w) = .ok (Word.family w, ⟨w, 2⟩) := by
  have bound : w.toNat < 0x10000 := w.toNat_lt
  have first : w.toNat / 16 ^ (5 - 1 - 1) % 16 ^ 1 = Word.family w := by
    simp only [Word.family]
    omega
  rw [family, start, if_pos rfl, take_eq w (by omega) (by omega) (by omega), first]

section Dressed

/-! A reader that dresses what another one reads moves the cursor as that one does. -/

variable {α β : Type} {reader : DigitReader α} {c c' : Cursor} (dress : α → β)

theorem map_ok {value : α} (read : reader c = .ok (value, c')) :
    (dress <$> reader) c = .ok (dress value, c') := by
  simp only [Functor.map, StateT.map, bind, Except.bind, read, pure, Except.pure]

theorem map_error {fault : Fault} (failed : reader c = .error fault) :
    (dress <$> reader) c = .error fault := by
  simp only [Functor.map, StateT.map, bind, Except.bind, failed]

end Dressed

theorem register_two (w : UInt16) : register ⟨w, 2⟩ = .ok (Word.x w, ⟨w, 3⟩) :=
  map_ok UInt8.ofNat (take_eq w (by decide) (by decide) (by decide))

theorem register_three (w : UInt16) : register ⟨w, 3⟩ = .ok (Word.y w, ⟨w, 4⟩) :=
  map_ok UInt8.ofNat (take_eq w (by decide) (by decide) (by decide))

/-- The digits up to the last one have none behind them. -/
theorem take_last (w : UInt16) {position count last : Nat} (inFront : 1 ≤ position)
    (whole : position + count = 5) (allowed : position ≤ last) :
    take count last ⟨w, position⟩ = .ok (w.toNat % 16 ^ count, ⟨w, 5⟩) := by
  have behind : 5 - position - count = 0 := by omega
  rw [take_eq w inFront (Nat.le_of_eq whole) allowed, behind, Nat.pow_zero, Nat.div_one, whole]

theorem register_four (w : UInt16) :
    register ⟨w, 4⟩ = .ok (UInt8.ofNat (Word.lastDigit w), ⟨w, 5⟩) :=
  map_ok UInt8.ofNat (take_last w (by decide) rfl (by decide))

theorem byte_three (w : UInt16) : byte ⟨w, 3⟩ = .ok (Word.kk w, ⟨w, 5⟩) :=
  map_ok UInt8.ofNat (take_last w (by decide) rfl (by decide))

theorem address_two (w : UInt16) : address ⟨w, 2⟩ = .ok (Word.nnn w, ⟨w, 5⟩) :=
  map_ok UInt16.ofNat (take_last w (by decide) rfl (by decide))

end Cursor

namespace Instruction

open Cursor

/-- Reading a word digit by digit never faults, and gives the instruction of the pattern table. -/
theorem read_eq_decode (w : UInt16) : read w = .ok (decode w) := by
  have small : Word.family w < 16 := by
    have bound : w.toNat < 0x10000 := w.toNat_lt
    simp only [Word.family]
    omega
  have digit : (UInt8.ofNat (Word.lastDigit w)).toNat = Word.lastDigit w := by
    simp only [Word.lastDigit, UInt8.toNat_ofNat']
    omega
  have byte : (Word.kk w).toNat = Word.lastByte w := by
    simp only [Word.kk, Word.lastByte, UInt8.toNat_ofNat']
    omega
  have zero : UInt8.ofNat (Word.lastDigit w) = 0 ↔ Word.lastDigit w = 0 := by
    rw [← UInt8.toNat_inj, digit]
    rfl
  unfold read decode StateT.run' reader
  simp only [bind, StateT.bind, family_start, Except.bind]
  generalize Word.family w = f at small
  match f, small with
  | 0x0, _ =>
    split
    · rfl
    · split
      · rfl
      · simp only [Functor.map, StateT.map, address_two, bind, Except.bind, pure, Except.pure,
          Except.map]
  | 0x1, _ | 0x2, _ | 0xA, _ | 0xB, _ =>
    simp only [Functor.map, StateT.map, address_two, bind, Except.bind, pure, Except.pure,
      Except.map]
  | 0x3, _ | 0x4, _ | 0x6, _ | 0x7, _ | 0xC, _ =>
    simp only [readConstant, bind, StateT.bind, register_two, byte_three, Except.bind]
    rfl
  | 0x5, _ | 0x9, _ =>
    simp only [readPair, bind, StateT.bind, register_two, register_three, register_four,
      Except.bind, zero]
    rfl
  | 0x8, _ =>
    simp only [readArithmetic, bind, StateT.bind, register_two, register_three, register_four,
      Except.bind, digit]
    rfl
  | 0xD, _ =>
    simp only [bind, StateT.bind, register_two, register_three, register_four, Except.bind]
    rfl
  | 0xE, _ | 0xF, _ =>
    simp only [readPicked, bind, StateT.bind, register_two, byte_three, Except.bind, byte]
    rfl
  | n + 16, small => exact absurd small (by omega)

end Instruction

end Chip8
