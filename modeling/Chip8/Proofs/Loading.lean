import Chip8.Proofs.Holding

/-! # Programs in memory

A program that is too large leaves memory alone, and any other one is found at the start of the
program area with everything around it as it was.  A program made of words has them high byte first,
so what is fetched at the place of a word is the instruction of that word, and a program of an even
number of bytes is read back word by word.

The non-trivial ingredient is `Holds.word_at`: memory that holds the bytes of a list of words has
each of them at its own place.
-/

namespace Chip8

/-! ## Words as bytes -/

namespace Word

/-- The bytes of a word, high byte first. -/
def bytes (w : UInt16) : List UInt8 :=
  [(w >>> 8).toUInt8, w.toUInt8]

/-- The bytes of a list of words, in order. -/
def image (words : List UInt16) : List UInt8 :=
  words.flatMap bytes

theorem length_image (words : List UInt16) : (image words).length = 2 * words.length := by
  have two (w : UInt16) : (bytes w).length = 2 := rfl
  simp only [image, List.length_flatMap, two, List.map_const', List.sum_replicate_nat,
    Nat.mul_comm]

theorem toNat_highByte (w : UInt16) : (w >>> 8).toUInt8.toNat = w.toNat / 256 := by
  have bound : w.toNat < 65536 := w.toNat_lt
  simp only [UInt16.toNat_toUInt8, UInt16.toNat_shiftRight, UInt16.reduceToNat, Nat.reduceMod,
    Nat.shiftRight_eq_div_pow, Nat.reducePow]
  omega

theorem toNat_lowByte (w : UInt16) : w.toUInt8.toNat = w.toNat % 256 :=
  UInt16.toNat_toUInt8 w

/-- The bytes of a word make up the word. -/
theorem ofNat_bytes (w : UInt16) :
    UInt16.ofNat (256 * (w >>> 8).toUInt8.toNat + w.toUInt8.toNat) = w := by
  rw [toNat_highByte, toNat_lowByte, Nat.div_add_mod]
  exact UInt16.ofNat_toNat

/-- Two bytes are the bytes of the word that they make up. -/
theorem bytes_ofNat (high low : UInt8) :
    bytes (UInt16.ofNat (256 * high.toNat + low.toNat)) = [high, low] := by
  have highBound : high.toNat < 256 := high.toNat_lt
  have lowBound : low.toNat < 256 := low.toNat_lt
  have whole : (UInt16.ofNat (256 * high.toNat + low.toNat)).toNat
      = 256 * high.toNat + low.toNat := UInt16.toNat_ofNat_of_lt' (by rw [UInt16.size]; omega)
  have first : (UInt16.ofNat (256 * high.toNat + low.toNat) >>> 8).toUInt8 = high := by
    apply UInt8.toNat_inj.mp
    rw [toNat_highByte, whole]
    omega
  have second : (UInt16.ofNat (256 * high.toNat + low.toNat)).toUInt8 = low := by
    apply UInt8.toNat_inj.mp
    rw [toNat_lowByte, whole]
    omega
  rw [bytes, first, second]

theorem exists_image : ∀ rom : List UInt8, rom.length % 2 = 0 → ∃ words, image words = rom
  | [], _ => ⟨[], rfl⟩
  | [_], odd => by cases odd
  | high :: low :: rest, even => by
    rw [List.length_cons, List.length_cons] at even
    obtain ⟨words, same⟩ := exists_image rest (by omega)
    refine ⟨UInt16.ofNat (256 * high.toNat + low.toNat) :: words, ?_⟩
    rw [image, List.flatMap_cons, bytes_ofNat, ← image, same]
    rfl

end Word

namespace Memory

variable {m m' : Memory} {addr a : Nat} {w : UInt16} {words : List UInt16}
  {rom bytes xs ys : List UInt8}

/-! ## Words that memory holds -/

theorem Holds.left (held : m.Holds addr (xs ++ ys)) : m.Holds addr xs := by
  intro i reached
  have inside : i < (xs ++ ys).length := by
    rw [List.length_append]
    omega
  rw [held i inside, List.getElem?_append_left reached]

theorem Holds.right (held : m.Holds addr (xs ++ ys)) : m.Holds (addr + xs.length) ys := by
  intro i reached
  have inside : xs.length + i < (xs ++ ys).length := by
    rw [List.length_append]
    omega
  rw [Nat.add_assoc, held _ inside, List.getElem?_append_right (Nat.le_add_right ..),
    Nat.add_sub_cancel_left]

theorem Holds.word_eq (held : m.Holds addr (Word.bytes w)) : m.word addr = w := by
  have first := held 0 Nat.two_pos
  have second := held 1 Nat.one_lt_two
  rw [Nat.add_zero] at first
  rw [word, first, second]
  exact Word.ofNat_bytes w

theorem Holds.word_at (held : m.Holds addr (Word.image words)) {k : Nat}
    (bound : k < words.length) : m.word (addr + 2 * k) = words[k] := by
  induction words generalizing addr k with
  | nil => cases bound
  | cons w words ih =>
    cases k with
    | zero => exact held.left.word_eq
    | succ k =>
      have rest : m.Holds (addr + 2) (Word.image words) := held.right
      rw [Nat.mul_succ, Nat.add_comm (2 * k), ← Nat.add_assoc]
      exact ih rest (Nat.lt_of_succ_lt_succ bound)

/-- The words at consecutive places, in order. -/
def readWords (m : Memory) (addr : UInt16) : Nat → Except MachineError (List UInt16)
  | 0 => .ok []
  | count + 1 => do
    let first ← m.readWord addr
    let rest ← m.readWords (addr + 2) count
    return first :: rest

theorem Holds.readWords_eq {addr : UInt16} (held : m.Holds addr.toNat (Word.image words))
    (inside : addr.toNat + 2 * words.length ≤ size) :
    m.readWords addr words.length = .ok words := by
  induction words generalizing addr with
  | nil => rfl
  | cons w words ih =>
    rw [List.length_cons, size] at inside
    have next : (addr + 2).toNat = addr.toNat + 2 := by
      simp only [UInt16.toNat_add, UInt16.reduceToNat]
      omega
    have rest : m.Holds (addr + 2).toNat (Word.image words) := by
      rw [next]
      exact held.right
    have read : m.readWord addr = .ok w := by
      rw [readWord_inside m (by rw [size]; omega), held.left.word_eq]
    rw [List.length_cons, readWords, read, ih rest (by rw [next, size]; omega)]
    rfl

/-! ## Writing bytes -/

/-- The bytes stand in memory from an address on, and around them is what was there before. -/
structure Written (m : Memory) (addr : Nat) (bytes : List UInt8) (m' : Memory) : Prop where
  shown : ∀ i (bound : i < bytes.length), m'.get (addr + i) = .ok bytes[i]
  kept : ∀ a, a < addr ∨ addr + bytes.length ≤ a → m'.get a = m.get a

theorem get_of_same (same : m'.cells[a]? = m.cells[a]?) : m'.get a = m.get a := by
  by_cases inside : a < size
  · rw [get_inside m' inside, get_inside m inside, same]
  · rw [get, get, dif_neg inside, dif_neg inside]

theorem written_store (m : Memory) (inside : addr + bytes.length ≤ size) :
    m.Written addr bytes (m.store addr bytes) where
  shown i bound := by
    have here : addr + i < size := by omega
    rw [get_inside _ here, m.holds_store inside i bound, List.getElem?_eq_getElem bound,
      Option.getD_some]
  kept a outside := get_of_same (m.store_outside outside)

/-! ## Placing a program -/

/-- A program stands at the start of the program area, and around it is what was there before. -/
structure Placed (m : Memory) (rom : List UInt8) (m' : Memory) : Prop where
  shown : ∀ i (bound : i < rom.length), m'.get (0x200 + i) = .ok rom[i]
  kept : ∀ a, a < 0x200 ∨ 0x200 + rom.length ≤ a → m'.get a = m.get a

theorem program_inside (fits : rom.length ≤ maxRomSize) :
    programStart.toNat + rom.length ≤ size := by
  have limit : maxRomSize = size - programStart.toNat := rfl
  have start : programStart.toNat ≤ size := by decide
  omega

theorem placed_store (m : Memory) (fits : rom.length ≤ maxRomSize) :
    Placed m rom (m.store programStart.toNat rom) :=
  have written := m.written_store (program_inside fits)
  { shown := written.shown, kept := written.kept }

theorem loadRom_error_iff (m : Memory) (rom : List UInt8) (cause : LoadError) :
    m.loadRom rom = .error cause ↔
      maxRomSize < rom.length ∧ cause = .romTooLarge rom.length maxRomSize := by
  rw [loadRom]
  split
  next large => simp [large, eq_comm]
  next fits => simp [fits]

end Memory

namespace Machine

variable {m loaded : Machine} {rom : List UInt8} {words : List UInt16}

theorem loadRom_error_iff (m : Machine) (rom : List UInt8) (cause : LoadError) :
    m.loadRom rom = .error cause ↔
      Memory.maxRomSize < rom.length ∧ cause = .romTooLarge rom.length Memory.maxRomSize := by
  rw [← m.memory.loadRom_error_iff, loadRom]
  cases m.memory.loadRom rom with
  | error cause' =>
    change Except.error cause' = _ ↔ _
    simp
  | ok memory =>
    change Except.ok _ = _ ↔ _
    simp

theorem apply_loadRom_of_large (large : Memory.maxRomSize < rom.length) :
    (Operation.loadRom rom).apply m = m := by
  have failed := (m.loadRom_error_iff rom _).mpr ⟨large, rfl⟩
  rw [Operation.apply, failed]

/-- The instruction of a word is fetched at the place where memory holds the word. -/
theorem fetch_of_word {pc : UInt16} {w : UInt16} (inside : pc.toNat + 1 < Memory.size)
    (word : m.memory.word pc.toNat = w) :
    ({ m with pc } : Machine).fetch = .ok (Instruction.decode w) := by
  rw [fetch_inside (m := { m with pc }) inside]
  exact congrArg (Except.ok ∘ Instruction.decode) word

theorem image_fits (few : words.length ≤ 1792) :
    (Word.image words).length ≤ Memory.maxRomSize := by
  have limit : Memory.maxRomSize = 3584 := rfl
  rw [Word.length_image, limit]
  omega

theorem holds_of_loadRom {notices : List Notice}
    (went : m.loadRom rom = .ok (loaded, notices)) :
    rom.length ≤ Memory.maxRomSize ∧ loaded.memory.Holds Memory.programStart.toNat rom := by
  have fits : rom.length ≤ Memory.maxRomSize := by
    apply Nat.le_of_not_lt
    intro large
    rw [(m.loadRom_error_iff rom _).mpr ⟨large, rfl⟩] at went
    cases went
  rw [loadRom_fits fits] at went
  cases went
  exact ⟨fits, m.memory.holds_store (Memory.program_inside fits)⟩

/-- A program is refused exactly if it has more than 3584 bytes, and leaves the machine as it is
    then; any other one stands at the start of the program area, and no other byte changes.  So of
    at most 1792 words each is fetched at its own place, and a program of an even number of bytes is
    what the words from the start of the program area on spell, high byte first. -/
theorem loaded_program_is_fetched (m : Machine) :
    (∀ rom cause, m.loadRom rom = .error cause ↔
        3584 < rom.length ∧ cause = .romTooLarge rom.length 3584)
      ∧ (∀ rom, 3584 < rom.length → (Operation.loadRom rom).apply m = m)
      ∧ (∀ rom, rom.length ≤ 3584 → ∃ memory,
          m.loadRom rom = .ok ({ m with memory }, [.romLoaded rom.length])
            ∧ m.memory.Placed rom memory)
      ∧ (∀ words, words.length ≤ 1792 → ∃ loaded notices,
          m.loadRom (Word.image words) = .ok (loaded, notices)
            ∧ ∀ k (bound : k < words.length), ∃ ins, Instruction.read words[k] = .ok ins
              ∧ ({ loaded with pc := UInt16.ofNat (0x200 + 2 * k) } : Machine).fetch = .ok ins)
      ∧ ∀ rom loaded notices, m.loadRom rom = .ok (loaded, notices) → rom.length % 2 = 0 →
          ∃ words, loaded.memory.readWords 0x200 (rom.length / 2) = .ok words
            ∧ Word.image words = rom := by
  refine ⟨m.loadRom_error_iff, fun rom => apply_loadRom_of_large, ?_, ?_, ?_⟩
  · intro rom fits
    exact ⟨_, loadRom_fits fits, Memory.placed_store m.memory fits⟩
  · intro words few
    have fits := image_fits few
    refine ⟨_, _, loadRom_fits fits, ?_⟩
    intro k bound
    have place : (UInt16.ofNat (0x200 + 2 * k)).toNat = 0x200 + 2 * k :=
      UInt16.toNat_ofNat_of_lt' (by rw [UInt16.size]; omega)
    have held := m.memory.holds_store (Memory.program_inside fits)
    refine ⟨_, Instruction.read_eq_decode _, fetch_of_word ?_ ?_⟩
    · rw [place, Memory.size]
      omega
    · rw [place]
      exact held.word_at bound
  · intro rom loaded notices went even
    obtain ⟨fits, held⟩ := holds_of_loadRom went
    obtain ⟨words, rfl⟩ := Word.exists_image rom even
    have inside := Memory.program_inside fits
    rw [Word.length_image] at inside
    refine ⟨words, ?_, rfl⟩
    rw [Word.length_image, Nat.mul_div_cancel_left _ Nat.two_pos]
    exact held.readWords_eq inside

/-- A program that fills memory up to the last cell. -/
def brimful : List UInt16 :=
  List.replicate 1792 0x00E0

theorem brimful_is_fetched : brimful.length ≤ 1792 ∧ ∃ loaded notices,
    (fresh (.arithmetic 0 0)).loadRom (Word.image brimful) = .ok (loaded, notices)
      ∧ ({ loaded with pc := 0xFFE } : Machine).fetch = .ok .clearScreen := by
  have length : brimful.length = 1792 := List.length_replicate
  obtain ⟨_, _, _, words, _⟩ := loaded_program_is_fetched (fresh (.arithmetic 0 0))
  obtain ⟨loaded, notices, went, fetched⟩ := words brimful (Nat.le_of_eq length)
  obtain ⟨ins, read, here⟩ := fetched 1791 (by rw [length]; decide)
  have last : brimful[1791] = 0x00E0 := List.getElem_replicate ..
  rw [last] at read
  cases read
  exact ⟨Nat.le_of_eq length, loaded, notices, went, here⟩

end Machine

end Chip8
