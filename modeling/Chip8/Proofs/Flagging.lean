import Chip8.Proofs.Framing
import Mathlib.Data.Nat.Bitwise

/-! # Arithmetic with a flag

Five instructions compute a byte and a flag from two registers and write the flag behind the byte.
Both operands may be the flag register, and each other: they are read before anything is written,
and a byte that goes to the flag register is lost.

The non-trivial ingredient is `FlagOp.recovers`: as numbers, byte and flag together make up the
exact result.  A difference is the exception.  Its flag says that the first operand is the larger
one, not that nothing was borrowed, so for equal operands the two do not add up.
-/

namespace Chip8

theorem Registers.get_setFlag (v : Registers) (on : Bool) (r : UInt8) :
    (v.setFlag on).get r = if nibble flag = nibble r then if on then 1 else 0 else v.get r := by
  rw [setFlag, get_set]

/-- The operations that give a byte and a flag. -/
inductive FlagOp where
  | add
  | sub
  | subReverse
  | shiftRight
  | shiftLeft
  deriving DecidableEq, Repr, Inhabited

namespace FlagOp

def instruction (x y : UInt8) : FlagOp → Instruction
  | add => .add x y
  | sub => .sub x y
  | subReverse => .subReverse x y
  | shiftRight => .shiftRight x y
  | shiftLeft => .shiftLeft x y

def compute (a b : UInt8) : FlagOp → Machine.Flagged
  | add => .add a b
  | sub => .sub a b
  | subReverse => .sub b a
  | shiftRight => .shiftRight a
  | shiftLeft => .shiftLeft a

def result (a b : Int) : FlagOp → Int
  | add => (a + b) % 256
  | sub => (a - b) % 256
  | subReverse => (b - a) % 256
  | shiftRight => a / 2
  | shiftLeft => 2 * a % 256

def flag (a b : Int) : FlagOp → Int
  | add => if 255 < a + b then 1 else 0
  | sub => if b < a then 1 else 0
  | subReverse => if a < b then 1 else 0
  | shiftRight => a % 2
  | shiftLeft => a / 128

/-- What a byte `r` and a flag `f` say about the operands. -/
def Recovers (a b r f : Int) : FlagOp → Prop
  | add => 256 * f + r = a + b
  | sub => r - 256 * (1 - f) = a - b ↔ a ≠ b
  | subReverse => r - 256 * (1 - f) = b - a ↔ a ≠ b
  | shiftRight => 2 * r + f = a
  | shiftLeft => 256 * f + r = 2 * a

/-! ## Bytes as numbers -/

theorem value_compute (op : FlagOp) (a b : UInt8) :
    ((op.compute a b).value.toNat : Int) = op.result a.toNat b.toNat := by
  have boundA : a.toNat < 256 := a.toNat_lt
  have boundB : b.toNat < 256 := b.toNat_lt
  have one : (1 : UInt8).toNat % 8 = 1 := rfl
  cases op with
  | add =>
    show ((a + b).toNat : Int) = (a.toNat + b.toNat) % 256
    rw [UInt8.toNat_add]
    omega
  | sub =>
    show ((a - b).toNat : Int) = (a.toNat - b.toNat) % 256
    rw [UInt8.toNat_sub]
    omega
  | subReverse =>
    show ((b - a).toNat : Int) = (b.toNat - a.toNat) % 256
    rw [UInt8.toNat_sub]
    omega
  | shiftRight =>
    show ((a >>> 1).toNat : Int) = a.toNat / 2
    rw [UInt8.toNat_shiftRight, one, Nat.shiftRight_eq_div_pow]
    omega
  | shiftLeft =>
    show ((a <<< 1).toNat : Int) = 2 * a.toNat % 256
    rw [UInt8.toNat_shiftLeft, one, Nat.shiftLeft_eq]
    omega

theorem toNat_flag {on : Bool} {p : Prop} [Decidable p] (same : on = true ↔ p) :
    ((if on then 1 else 0 : UInt8).toNat : Int) = if p then 1 else 0 := by
  by_cases holds : p
  · rw [if_pos (same.mpr holds), if_pos holds]
    rfl
  · rw [if_neg (mt same.mp holds), if_neg holds]
    rfl

theorem flag_compute (op : FlagOp) (a b : UInt8) :
    ((if (op.compute a b).flag then 1 else 0 : UInt8).toNat : Int)
      = op.flag a.toNat b.toNat := by
  have bound : a.toNat < 256 := a.toNat_lt
  cases op with
  | add =>
    apply toNat_flag
    show decide (255 < a.toNat + b.toNat) = true ↔ _
    rw [decide_eq_true_iff]
    omega
  | sub =>
    apply toNat_flag
    show decide (b < a) = true ↔ _
    rw [decide_eq_true_iff, UInt8.lt_iff_toNat_lt, Int.ofNat_lt]
  | subReverse =>
    apply toNat_flag
    show decide (a < b) = true ↔ _
    rw [decide_eq_true_iff, UInt8.lt_iff_toNat_lt, Int.ofNat_lt]
  | shiftRight =>
    -- the lowest bit is the remainder of halving
    have lowest : (a &&& 1 != 0) = true ↔ (a.toNat : Int) % 2 = 1 := by
      have one : (1 : UInt8).toNat = 1 := rfl
      have zero : (0 : UInt8).toNat = 0 := rfl
      rw [bne_iff_ne, ne_eq, ← UInt8.toNat_inj, UInt8.toNat_and, one, zero, Nat.and_one_is_mod]
      omega
    refine (toNat_flag lowest).trans ?_
    show _ = (a.toNat : Int) % 2
    split <;> omega
  | shiftLeft =>
    -- the highest bit says whether the byte is at least 128
    have highest : (a &&& 0x80 != 0) = true ↔ (a.toNat : Int) / 128 = 1 := by
      have mask : (0x80 : UInt8).toNat = 2 ^ 7 := rfl
      have zero : (0 : UInt8).toNat = 0 := rfl
      rw [bne_iff_ne, ne_eq, ← UInt8.toNat_inj, UInt8.toNat_and, mask, zero, Nat.and_comm,
        Nat.two_pow_and, Nat.mul_eq_zero, Bool.toNat_eq_zero, Nat.testBit_eq_decide_div_mod_eq,
        decide_eq_false_iff_not]
      omega
    refine (toNat_flag highest).trans ?_
    show _ = (a.toNat : Int) / 128
    split <;> omega

/-- Byte and flag together make up the exact result, for a difference if the operands differ. -/
theorem recovers (op : FlagOp) (a b : UInt8) :
    op.Recovers a.toNat b.toNat (op.result a.toNat b.toNat) (op.flag a.toNat b.toNat) := by
  have boundA : a.toNat < 256 := a.toNat_lt
  have boundB : b.toNat < 256 := b.toNat_lt
  cases op with
  | add | sub | subReverse =>
    simp only [Recovers, result, flag]
    split <;> omega
  | shiftRight | shiftLeft =>
    simp only [Recovers, result, flag]
    omega

/-! ## The instructions -/

theorem touches_instruction (op : FlagOp) (x y : UInt8) (address : Nat) :
    (op.instruction x y).touches address =
      [.register (nibble x), .register (nibble Registers.flag)] := by
  cases op <;> rfl

theorem execute_instruction (op : FlagOp) (m : Machine) (x y : UInt8) :
    m.execute (op.instruction x y) = m.writingFlagged x (op.compute (m.v x) (m.v y)) := by
  cases op <;> rfl

end FlagOp

/-- The operations that give a byte and leave the flag alone, with their second operand. -/
inductive PlainOp where
  | copy (y : UInt8)
  | or (y : UInt8)
  | and (y : UInt8)
  | xor (y : UInt8)
  | addByte (kk : UInt8)
  deriving DecidableEq, Repr, Inhabited

namespace PlainOp

def instruction (x : UInt8) : PlainOp → Instruction
  | copy y => .copy x y
  | or y => .or x y
  | and y => .and x y
  | xor y => .xor x y
  | addByte kk => .addByte x kk

def result (m : Machine) (x : UInt8) : PlainOp → Nat
  | copy y => (m.v y).toNat
  | or y => (m.v x).toNat ||| (m.v y).toNat
  | and y => (m.v x).toNat &&& (m.v y).toNat
  | xor y => (m.v x).toNat ^^^ (m.v y).toNat
  | addByte kk => ((m.v x).toNat + kk.toNat) % 256

theorem touches_instruction (op : PlainOp) (x : UInt8) (address : Nat) :
    (op.instruction x).touches address = [.register (nibble x)] := by
  cases op <;> rfl

theorem execute_instruction (op : PlainOp) (m : Machine) (x : UInt8) :
    ∃ value : UInt8, m.execute (op.instruction x) = m.writing x value
      ∧ value.toNat = op.result m x := by
  cases op with
  | copy y => exact ⟨_, rfl, rfl⟩
  | or y => exact ⟨_, rfl, UInt8.toNat_or ..⟩
  | and y => exact ⟨_, rfl, UInt8.toNat_and ..⟩
  | xor y => exact ⟨_, rfl, UInt8.toNat_xor ..⟩
  | addByte kk => exact ⟨_, rfl, UInt8.toNat_add ..⟩

end PlainOp

namespace Machine

theorem v_writing (m : Machine) (x value : UInt8) : (m.writing x value).machine.v x = value := by
  show (m.registers.set x value).get x = value
  rw [Registers.get_set, if_pos rfl]

theorem v_flag_writingFlagged (m : Machine) (x : UInt8) (r : Flagged) :
    (m.writingFlagged x r).machine.v Registers.flag = if r.flag then 1 else 0 := by
  show ((m.registers.set x r.value).setFlag r.flag).get Registers.flag = _
  rw [Registers.get_setFlag, if_pos rfl]

theorem v_writingFlagged (m : Machine) {x : UInt8} (r : Flagged)
    (plain : nibble x ≠ nibble Registers.flag) :
    (m.writingFlagged x r).machine.v x = r.value := by
  show ((m.registers.set x r.value).setFlag r.flag).get x = _
  rw [Registers.get_setFlag, if_neg plain.symm, Registers.get_set, if_pos rfl]

/-- The flag wins.  An operation that gives a byte and a flag takes both from the operands as they
    were, whichever registers these are: the flag register holds the flag afterwards, and the other
    register the byte, unless it is the flag register itself.  Then byte and flag together tell the
    exact result; for a difference of equal operands, and for no other one, they do not.  An
    operation that gives no flag writes its byte and nothing else. -/
theorem flag_wins (m : Machine) (x : UInt8) :
    (∀ (op : FlagOp) (y : UInt8), ∃ m', m.execute (op.instruction x y) = .done .next m'
        ∧ ((m'.v Registers.flag).toNat : Int) = op.flag (m.v x).toNat (m.v y).toNat
        ∧ (nibble x ≠ nibble Registers.flag →
            ((m'.v x).toNat : Int) = op.result (m.v x).toNat (m.v y).toNat
              ∧ op.Recovers (m.v x).toNat (m.v y).toNat
                  (m'.v x).toNat (m'.v Registers.flag).toNat)
        ∧ ∀ part ∉ [Part.register (nibble x), .register (nibble Registers.flag)],
            part.Same m m')
      ∧ ∀ op : PlainOp, ∃ m', m.execute (op.instruction x) = .done .next m'
          ∧ (m'.v x).toNat = op.result m x
          ∧ (nibble x ≠ nibble Registers.flag → m'.v Registers.flag = m.v Registers.flag)
          ∧ ∀ part ∉ [Part.register (nibble x)], part.Same m m' := by
  constructor
  · intro op y
    have executed := op.execute_instruction m x y
    -- the flag is written last, so it holds for the flag register as the target, too
    have flag : ((((m.execute (op.instruction x y)).machine.v Registers.flag).toNat : Nat) : Int)
        = op.flag (m.v x).toNat (m.v y).toNat := by
      rw [executed, v_flag_writingFlagged]
      exact op.flag_compute _ _
    refine ⟨(m.execute (op.instruction x y)).machine, ?_, flag, ?_, ?_⟩
    · rw [executed]
      rfl
    · intro plain
      have result : (((m.execute (op.instruction x y)).machine.v x).toNat : Int)
          = op.result (m.v x).toNat (m.v y).toNat := by
        rw [executed, v_writingFlagged m _ plain]
        exact op.value_compute _ _
      refine ⟨result, ?_⟩
      rw [result, flag]
      exact op.recovers _ _
    · intro part untouched
      rw [← op.touches_instruction x y m.index.address] at untouched
      exact execute_same untouched
  · intro op
    obtain ⟨value, executed, result⟩ := op.execute_instruction m x
    have kept : ∀ part ∉ [Part.register (nibble x)],
        part.Same m (m.execute (op.instruction x)).machine := by
      intro part untouched
      rw [← op.touches_instruction x m.index.address] at untouched
      exact execute_same untouched
    refine ⟨(m.execute (op.instruction x)).machine, ?_, ?_, ?_, kept⟩
    · rw [executed]
      rfl
    · rw [executed, v_writing]
      exact result
    · intro plain
      exact kept (.register (nibble Registers.flag)) (by simpa using plain.symm)

/-- A machine with 200 in V3 and 100 in the flag register. -/
def calculating : Machine :=
  { fresh (.arithmetic 0 0) with registers := (Registers.initial.set 3 200).set 0xF 100 }

theorem calculating_flag_wins :
    (∃ m', calculating.execute (.add 3 0xF) = .done .next m'
        ∧ ((m'.v 0xF).toNat : Int) = 1 ∧ ((m'.v 3).toNat : Int) = 44
        ∧ 256 * ((m'.v 0xF).toNat : Int) + (m'.v 3).toNat = 200 + 100)
      ∧ (∃ m', calculating.execute (.add 0xF 3) = .done .next m'
        ∧ ((m'.v 0xF).toNat : Int) = 1 ∧ m'.v 3 = calculating.v 3)
      ∧ (∃ m', calculating.execute (.sub 3 3) = .done .next m'
        ∧ ((m'.v 0xF).toNat : Int) = 0 ∧ ((m'.v 3).toNat : Int) = 0
        ∧ ¬ ((m'.v 3).toNat : Int) - 256 * (1 - (m'.v 0xF).toNat) = 200 - 200)
      ∧ ∃ m', calculating.execute (.xor 3 0xF) = .done .next m'
        ∧ (m'.v 3).toNat = 172 ∧ m'.v 0xF = calculating.v 0xF := by
  obtain ⟨flagging, plain⟩ := flag_wins calculating 3
  obtain ⟨sum, added, carry, sumByte, _⟩ := flagging .add 0xF
  obtain ⟨lost, addedToFlag, carry', _, kept⟩ := (flag_wins calculating 0xF).1 .add 3
  obtain ⟨zero, subtracted, borrow, zeroByte, _⟩ := flagging .sub 3
  obtain ⟨mixed, combined, mixedByte, flagKept, _⟩ := plain (.xor 0xF)
  obtain ⟨sumResult, sumExact⟩ := sumByte (by decide)
  obtain ⟨zeroResult, zeroExact⟩ := zeroByte (by decide)
  refine ⟨⟨sum, added, carry, sumResult, sumExact⟩,
    ⟨lost, addedToFlag, carry', kept (.register 3) (by decide)⟩,
    ⟨zero, subtracted, borrow, zeroResult, ?_⟩,
    ⟨mixed, combined, mixedByte, flagKept (by decide)⟩⟩
  intro balanced
  exact absurd rfl (zeroExact.mp balanced)

end Machine

end Chip8
