import Chip8.Proofs.Loading
import Mathlib.Data.List.Induction

/-! # Memory as a row of cells

Bytes get into memory one at a time, as a span of equal bytes, as a span of given ones, or as a
program.  Each of the four either writes a list of bytes from some cell on or changes nothing, so
after any sequence of writes a cell shows the byte of the last one that succeeded and covered it,
and the byte that it started with if there was none.

The non-trivial ingredient is `Written.unique`: what a write brings into its cells and leaves alone
around them determines the memory, so every write can be told by these two facts.
-/

namespace Chip8

namespace Memory

variable {m m' : Memory} {addr length a : Nat} {bytes : List UInt8}

/-! ## Cells -/

theorem eq_of_get (same : ∀ a < size, m'.get a = m.get a) : m' = m := by
  refine congrArg Memory.mk (Vector.ext fun a bound => ?_)
  have shown := same a bound
  rw [get, get, dif_pos bound, dif_pos bound] at shown
  exact Except.ok.inj shown

theorem get_error_iff (m : Memory) (a : Nat) (cause : MachineError) :
    m.get a = .error cause ↔ 4096 ≤ a ∧ cause = .memoryOutOfBounds a := by
  by_cases inside : a < size
  · rw [get_inside m inside]
    simp [Nat.not_le_of_lt inside]
  · rw [get, dif_neg inside]
    simp [Nat.le_of_not_lt inside, eq_comm]

theorem Written.unique {m'' : Memory} (written : m.Written addr bytes m')
    (written' : m.Written addr bytes m'') : m' = m'' := by
  apply eq_of_get
  intro a _
  by_cases covered : addr ≤ a ∧ a < addr + bytes.length
  · obtain ⟨i, rfl⟩ := Nat.exists_eq_add_of_le covered.1
    have bound : i < bytes.length := Nat.lt_of_add_lt_add_left covered.2
    rw [written.shown i bound, written'.shown i bound]
  · have outside : a < addr ∨ addr + bytes.length ≤ a := by omega
    rw [written.kept a outside, written'.kept a outside]

theorem written_iff (inside : addr + bytes.length ≤ size) :
    m.Written addr bytes m' ↔ m.store addr bytes = m' := by
  constructor
  · intro written
    exact (m.written_store inside).unique written
  · rintro rfl
    exact m.written_store inside

theorem set_inside (m : Memory) (inside : a < size) (value : UInt8) :
    m.set a value = .ok (m.store a [value]) := by
  rw [set, dif_pos inside, store, writeBlock, writeBlock]
  refine congrArg (Except.ok ∘ Memory.mk) (Vector.ext fun i bound => ?_)
  rw [Vector.getElem_set, Vector.getElem_setIfInBounds bound]

theorem set_error_iff (m : Memory) (a : Nat) (value : UInt8) (cause : MachineError) :
    m.set a value = .error cause ↔ 4096 ≤ a ∧ cause = .memoryOutOfBounds a := by
  by_cases inside : a < size
  · rw [set_inside m inside]
    simp [Nat.not_le_of_lt inside]
  · rw [set, dif_neg inside]
    simp [Nat.le_of_not_lt inside, eq_comm]

/-! ## Spans -/

/-- How an access to a span ends: inside memory with a value that is `good`, past the last cell with
    the address of the last cell of the span, and past 64 bits with a fault. -/
structure SpanAccess {α : Type} (addr length : Nat) (good : α → Prop) (result : Except Stop α) :
    Prop where
  ok_iff : ∀ value, result = .ok value ↔ addr + length ≤ size ∧ good value
  error_iff : ∀ cause, result = .error (.error cause) ↔
    size < addr + length ∧ addr + length < UInt64.size
      ∧ size ≤ addr + length - 1 ∧ cause = .memoryOutOfBounds (addr + length - 1)
  fault_iff : ∀ fault, result = .error (.fault fault) ↔
    UInt64.size ≤ addr + length ∧ fault = .overflow

theorem spanAccess_of_checkSpan {α : Type} {good : α → Prop} {value : α}
    (given : addr + length ≤ size → ∀ value', good value' ↔ value = value') :
    SpanAccess addr length good (checkSpan addr length >>= fun _ => .ok value) := by
  rcases Nat.lt_or_ge size (addr + length) with outside | inside
  · have notInside : ¬ addr + length ≤ size := Nat.not_le_of_lt outside
    rcases Nat.lt_or_ge (addr + length) UInt64.size with fits | overflows
    · have last : size ≤ addr + length - 1 := Nat.le_sub_one_of_lt outside
      have notLarge : ¬ UInt64.size ≤ addr + length := Nat.not_le_of_lt fits
      rw [checkSpan_outside outside fits]
      exact
        { ok_iff := by simp [bind, Except.bind, notInside]
          error_iff := by simp [bind, Except.bind, outside, fits, last, eq_comm]
          fault_iff := by simp [bind, Except.bind, notLarge] }
    · have notFits : ¬ addr + length < UInt64.size := Nat.not_lt_of_le overflows
      rw [checkSpan, if_pos overflows]
      exact
        { ok_iff := by simp [bind, Except.bind, notInside]
          error_iff := by simp [bind, Except.bind, notFits]
          fault_iff := by simp [bind, Except.bind, overflows, eq_comm] }
  · have notOutside : ¬ size < addr + length := Nat.not_lt_of_le inside
    have notLarge : ¬ UInt64.size ≤ addr + length := fun large =>
      absurd (Nat.le_trans large inside) (by decide)
    rw [checkSpan_inside inside]
    exact
      { ok_iff := by simp [bind, Except.bind, inside, given inside]
        error_iff := by simp [bind, Except.bind, notOutside]
        fault_iff := by simp [bind, Except.bind, notLarge] }

/-- The bytes are those of the cells of a span, one for each. -/
def Exposed (m : Memory) (addr length : Nat) (bytes : List UInt8) : Prop :=
  bytes.length = length ∧ ∀ i (bound : i < bytes.length), m.get (addr + i) = .ok bytes[i]

theorem Exposed.holds (exposed : m.Exposed addr length bytes) (inside : addr + length ≤ size) :
    m.Holds addr bytes := by
  obtain ⟨rfl, shown⟩ := exposed
  intro i reached
  have here : addr + i < size := by omega
  have read := shown i reached
  rw [get, dif_pos here] at read
  rw [Vector.getElem?_eq_getElem here, List.getElem?_eq_getElem reached, Except.ok.inj read]

theorem spanAccess_slice (m : Memory) (addr length : Nat) :
    SpanAccess addr length (m.Exposed addr length) (m.slice addr length) := by
  apply spanAccess_of_checkSpan
  intro inside bytes
  have read := slice_eq m inside
  constructor
  · intro exposed
    have held := exposed.holds inside
    obtain ⟨rfl, _⟩ := exposed
    rw [slice_of_holds inside held] at read
    exact (Except.ok.inj read).symm
  · rintro rfl
    have held := holds_of_slice read
    refine ⟨length_of_slice read, fun i bound => ?_⟩
    have here : addr + i < size := by
      rw [length_of_slice read] at bound
      omega
    rw [get_inside m here, held i bound, List.getElem?_eq_getElem bound, Option.getD_some]

theorem spanAccess_fill (m : Memory) (addr length : Nat) (value : UInt8) :
    SpanAccess addr length (m.Written addr (List.replicate length value))
      (m.fill addr length value) := by
  apply spanAccess_of_checkSpan
  intro inside m'
  apply written_iff
  rwa [List.length_replicate]

theorem spanAccess_overwrite (m : Memory) (addr : Nat) (bytes : List UInt8) :
    SpanAccess addr bytes.length (m.Written addr bytes) (m.overwrite addr bytes.length bytes) := by
  rw [overwrite, if_pos rfl]
  exact spanAccess_of_checkSpan fun inside m' => written_iff inside

/-! ## Words -/

theorem toNat_word (m : Memory) (addr : Nat) : (m.word addr).toNat =
    256 * (m.cells[addr]?.getD 0).toNat + (m.cells[addr + 1]?.getD 0).toNat := by
  have high : (m.cells[addr]?.getD 0).toNat < 256 := UInt8.toNat_lt _
  have low : (m.cells[addr + 1]?.getD 0).toNat < 256 := UInt8.toNat_lt _
  exact UInt16.toNat_ofNat_of_lt' (by rw [UInt16.size]; omega)

theorem readWord_eq_ok_iff (m : Memory) (addr w : UInt16) :
    m.readWord addr = .ok w ↔ addr.toNat ≤ 4094 ∧ ∃ high low,
      m.get addr.toNat = .ok high ∧ m.get (addr.toNat + 1) = .ok low
        ∧ w.toNat = 256 * high.toNat + low.toNat := by
  by_cases inside : addr.toNat ≤ 4094
  · have second : addr.toNat + 1 < size := Nat.lt_succ_of_le (Nat.succ_le_succ inside)
    have first : addr.toNat < size := Nat.lt_of_succ_lt second
    rw [readWord_inside m second, get_inside m first, get_inside m second, Except.ok.injEq,
      ← UInt16.toNat_inj, toNat_word]
    simp [inside, eq_comm]
  · have failed : m.get (addr.toNat + 1) = .error (.memoryOutOfBounds (addr.toNat + 1)) :=
      (m.get_error_iff _ _).mpr ⟨by omega, rfl⟩
    rw [readWord, failed]
    constructor
    · intro read
      cases first : m.get addr.toNat with
      | error | ok =>
        rw [first] at read
        cases read
    · rintro ⟨inside', _⟩
      exact absurd inside' inside

end Memory

/-! ## Writes -/

/-- A write to memory, whether it succeeds or not. -/
inductive MemoryWrite where
  | set (addr : Nat) (value : UInt8)
  | fill (addr length : Nat) (value : UInt8)
  | overwrite (addr : Nat) (bytes : List UInt8)
  | loadRom (rom : List UInt8)
  deriving DecidableEq, Repr, Inhabited

namespace MemoryWrite

/-- The first cell of a write. -/
def start : MemoryWrite → Nat
  | .set addr _ => addr
  | .fill addr _ _ => addr
  | .overwrite addr _ => addr
  | .loadRom _ => 0x200

/-- The bytes of a write, in order. -/
def bytes : MemoryWrite → List UInt8
  | .set _ value => [value]
  | .fill _ length value => List.replicate length value
  | .overwrite _ bytes => bytes
  | .loadRom rom => rom

/-- The memory after a write that succeeds. -/
def perform (m : Memory) : MemoryWrite → Option Memory
  | .set addr value => (m.set addr value).toOption
  | .fill addr length value => (m.fill addr length value).toOption
  | .overwrite addr bytes => (m.overwrite addr bytes.length bytes).toOption
  | .loadRom rom => (m.loadRom rom).toOption

/-- The memory after a write; one that fails changes nothing. -/
def apply (m : Memory) (w : MemoryWrite) : Memory :=
  (w.perform m).getD m

/-- The byte that a write brings into a cell: it succeeds, and it covers the cell. -/
def byteAt? (w : MemoryWrite) (a : Nat) : Option UInt8 :=
  if w.start + w.bytes.length ≤ 4096 ∧ w.start ≤ a then w.bytes[a - w.start]? else none

end MemoryWrite

namespace Memory

def afterWrites (m : Memory) (writes : List MemoryWrite) : Memory :=
  writes.foldl MemoryWrite.apply m

/-- The byte of the last write that succeeded and covered a cell. -/
def lastByte? (writes : List MemoryWrite) (a : Nat) : Option UInt8 :=
  writes.reverse.findSome? (·.byteAt? a)

theorem toOption_eq_some_iff {ε α : Type} {result : Except ε α} {value : α} :
    result.toOption = some value ↔ result = .ok value := by
  cases result <;> simp [Except.toOption]

/-- A write succeeds exactly if all its cells are there, and brings its bytes into them. -/
theorem perform_eq_some_iff (m m' : Memory) (w : MemoryWrite) : w.perform m = some m' ↔
    w.start + w.bytes.length ≤ 4096 ∧ m.Written w.start w.bytes m' := by
  cases w with
  | set addr value =>
    rw [MemoryWrite.perform, toOption_eq_some_iff]
    by_cases inside : addr < size
    · rw [set_inside m inside, Except.ok.injEq, ← written_iff (Nat.succ_le_of_lt inside)]
      exact (and_iff_right (Nat.succ_le_of_lt inside)).symm
    · rw [(m.set_error_iff addr value _).mpr ⟨Nat.le_of_not_lt inside, rfl⟩]
      constructor
      · intro done
        cases done
      · rintro ⟨inside', _⟩
        exact absurd inside' inside
  | fill addr length value =>
    rw [MemoryWrite.perform, toOption_eq_some_iff, (m.spanAccess_fill addr length value).ok_iff]
    simp only [MemoryWrite.start, MemoryWrite.bytes, List.length_replicate]
  | overwrite addr bytes =>
    rw [MemoryWrite.perform, toOption_eq_some_iff, (m.spanAccess_overwrite addr bytes).ok_iff]
    rfl
  | loadRom rom =>
    rw [MemoryWrite.perform, toOption_eq_some_iff]
    by_cases fits : rom.length ≤ maxRomSize
    · have inside := program_inside fits
      rw [loadRom, if_neg (Nat.not_lt_of_le fits), Except.ok.injEq, ← written_iff inside]
      exact (and_iff_right inside).symm
    · have large : maxRomSize < rom.length := Nat.lt_of_not_le fits
      rw [(m.loadRom_error_iff rom _).mpr ⟨large, rfl⟩]
      constructor
      · intro done
        cases done
      · rintro ⟨inside, _⟩
        exact absurd (Nat.le_sub_of_add_le' inside) fits

theorem perform_eq_none_iff (m : Memory) (w : MemoryWrite) :
    w.perform m = none ↔ 4096 < w.start + w.bytes.length := by
  constructor
  · intro failed
    apply Nat.lt_of_not_le
    intro inside
    have done := (m.perform_eq_some_iff _ w).mpr ⟨inside, m.written_store inside⟩
    cases failed.symm.trans done
  · intro outside
    cases performed : w.perform m with
    | none => rfl
    | some m' =>
      exact absurd ((m.perform_eq_some_iff m' w).mp performed).1 (Nat.not_le_of_lt outside)

/-! ## Histories -/

theorem get_apply (m : Memory) (w : MemoryWrite) (a : Nat) :
    (w.apply m).get a = (w.byteAt? a).elim (m.get a) .ok := by
  unfold MemoryWrite.apply
  cases performed : w.perform m with
  | none =>
    have outside : ¬ w.start + w.bytes.length ≤ 4096 :=
      Nat.not_le_of_lt ((m.perform_eq_none_iff w).mp performed)
    simp only [Option.getD_none, MemoryWrite.byteAt?, outside, false_and, if_false,
      Option.elim_none]
  | some m' =>
    obtain ⟨inside, written⟩ := (m.perform_eq_some_iff m' w).mp performed
    simp only [Option.getD_some, MemoryWrite.byteAt?, inside, true_and]
    split
    next behind =>
      obtain ⟨i, rfl⟩ := Nat.exists_eq_add_of_le behind
      rw [Nat.add_sub_cancel_left]
      by_cases bound : i < w.bytes.length
      · rw [List.getElem?_eq_getElem bound, written.shown i bound, Option.elim_some]
      · have past : w.bytes.length ≤ i := Nat.le_of_not_lt bound
        rw [List.getElem?_eq_none past, Option.elim_none]
        exact written.kept _ (.inr (Nat.add_le_add_left past _))
    next before => exact written.kept a (.inl (Nat.lt_of_not_le before))

theorem afterWrites_snoc (m : Memory) (writes : List MemoryWrite) (w : MemoryWrite) :
    m.afterWrites (writes ++ [w]) = w.apply (m.afterWrites writes) :=
  List.foldl_append ..

theorem lastByte?_snoc (writes : List MemoryWrite) (w : MemoryWrite) (a : Nat) :
    lastByte? (writes ++ [w]) a = (w.byteAt? a).or (lastByte? writes a) := by
  rw [lastByte?, List.reverse_append, List.reverse_singleton, List.singleton_append,
    List.findSome?_cons]
  cases w.byteAt? a <;> rfl

/-- After any writes, a cell shows the byte of the last one that succeeded and covered it. -/
theorem get_afterWrites (m : Memory) (writes : List MemoryWrite) (a : Nat) :
    (m.afterWrites writes).get a = (lastByte? writes a).elim (m.get a) .ok := by
  -- the last write comes off the end, since it is the one that counts first
  induction writes using List.reverseRecOn with
  | nil => rfl
  | append_singleton writes w ih =>
    rw [afterWrites_snoc, get_apply, ih, lastByte?_snoc]
    cases w.byteAt? a <;> rfl

theorem get_initial {a : Nat} (inside : a < size) :
    initial.get a = .ok (font[a]?.getD 0) := by
  have start : fontBase.toNat = 0 := rfl
  rw [get_inside _ inside, initial, getElem?_store _ _ _ inside, start, Nat.sub_zero]
  split
  next => rfl
  next outside =>
    have behind : font.length ≤ a := by omega
    rw [List.getElem?_eq_none behind, Vector.getElem?_replicate, if_pos inside]
    rfl

/-- Memory is a row of 4096 cells.  After any writes to a new one, a cell shows what the last write
    that succeeded and covered it put there, or else what it held at first.  A write succeeds exactly
    if it lies in memory as a whole, and then changes its own cells and no others; if it fails it
    changes nothing.  Single cells, spans that are read or written, and words are there exactly up to
    the last cell; past it they are reported with the address of their last cell, and a span that
    leaves 64 bits is a fault. -/
theorem behaves_as_cells (m : Memory) :
    (∀ writes a, a < 4096 → (initial.afterWrites writes).get a
        = .ok ((lastByte? writes a).getD (font[a]?.getD 0)))
      ∧ (∀ (w : MemoryWrite) m', w.perform m = some m' ↔
          w.start + w.bytes.length ≤ 4096 ∧ m.Written w.start w.bytes m')
      ∧ (∀ w : MemoryWrite, w.perform m = none → w.apply m = m)
      ∧ (∀ a cause, m.get a = .error cause ↔ 4096 ≤ a ∧ cause = .memoryOutOfBounds a)
      ∧ (∀ a value cause,
          m.set a value = .error cause ↔ 4096 ≤ a ∧ cause = .memoryOutOfBounds a)
      ∧ (∀ addr length, SpanAccess addr length (m.Exposed addr length) (m.slice addr length))
      ∧ (∀ addr length value, SpanAccess addr length
          (m.Written addr (List.replicate length value)) (m.fill addr length value))
      ∧ (∀ addr bytes, SpanAccess addr bytes.length (m.Written addr bytes)
          (m.overwrite addr bytes.length bytes))
      ∧ ∀ addr w, m.readWord addr = .ok w ↔ addr.toNat ≤ 4094 ∧ ∃ high low,
          m.get addr.toNat = .ok high ∧ m.get (addr.toNat + 1) = .ok low
            ∧ w.toNat = 256 * high.toNat + low.toNat := by
  refine ⟨?_, fun w m' => m.perform_eq_some_iff m' w, ?_, m.get_error_iff, m.set_error_iff,
    m.spanAccess_slice, m.spanAccess_fill, m.spanAccess_overwrite, m.readWord_eq_ok_iff⟩
  · intro writes a inside
    rw [get_afterWrites, get_initial inside]
    cases lastByte? writes a <;> rfl
  · intro w failed
    rw [MemoryWrite.apply, failed, Option.getD_none]

/-- Writes over one another, two of them across the last cell. -/
def scrawl : List MemoryWrite :=
  [.fill 0x1FE 4 0xAA, .loadRom [1, 2, 3], .set 0x201 7, .overwrite 0xFFE [8, 9],
    .overwrite 0xFFE [4, 5, 6], .set 0x1000 1]

theorem scrawl_shows : (0xFFF < 4096 ∧ (initial.afterWrites scrawl).get 0xFFF = .ok 9)
    ∧ (initial.afterWrites scrawl).get 0x201 = .ok 7
    ∧ (initial.afterWrites scrawl).get 0x1FF = .ok 0xAA
    ∧ (initial.afterWrites scrawl).get 0x04F = .ok 0x80
    ∧ (initial.afterWrites scrawl).slice 0x1001 0 = .error (.error (.memoryOutOfBounds 0x1000))
    ∧ (MemoryWrite.set 0x1000 1).apply initial = initial := by
  obtain ⟨last, _, fails, _⟩ := behaves_as_cells initial
  obtain ⟨_, _, _, _, _, slices, _⟩ := behaves_as_cells (initial.afterWrites scrawl)
  have empty := ((slices 0x1001 0).error_iff (.memoryOutOfBounds 0x1000)).mpr
    ⟨by decide, by decide, by decide, rfl⟩
  exact ⟨⟨by decide, last scrawl 0xFFF (by decide)⟩, last scrawl 0x201 (by decide),
    last scrawl 0x1FF (by decide), last scrawl 0x04F (by decide), empty, fails _ rfl⟩

end Memory

end Chip8
