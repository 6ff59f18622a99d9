import Chip8.Error
import Chip8.FrameBuffer
import Chip8.Memory
import Chip8.Timer

/-! # Operations with their checks spelled out

Drawing moves whole rows, a timer counts down behind a test, and the glyph of a digit is found by
word arithmetic: none of them is written with checks, because none needs any.  Here they are carried
out in the smallest steps, pixel by pixel, with a fault wherever an index leaves its array, a shift
its byte or a result its word.  `plot_eq`, `countDown_eq` and `glyphAddress_eq` say that no fault
ever comes of it and that the answers are the same.

The invariant of the pixel loop is that the columns before the current one are done and the sprite
row `behind` it is still to come.
-/

namespace Chip8

namespace FrameBuffer

/-! ## Drawing pixel by pixel -/

/-- A row in which at most one pixel is on. -/
def dot (column : Nat) (bit : Bool) : BitVec width :=
  if bit then BitVec.twoPow width (width - 1 - column) else 0

/-- Flips a pixel of the grid if `bit` says so; the answer says whether it was on then. -/
def flip (fb : FrameBuffer) (column row : Nat) (bit : Bool) : Except Fault (FrameBuffer × Bool) :=
  if h : row < height ∧ column < width then
    .ok (⟨fb.rows.set row (fb.rows[row] ^^^ dot column bit)⟩, fb.rows[row].getMsbD column && bit)
  else
    .error .indexOutOfRange

/-- A bit of a sprite's byte, counted from the left, by a shift that has to be shorter than the
    byte. -/
def spriteBit (byte : UInt8) (j : Nat) : Except Fault Bool := do
  let places ← Fault.checkedSub 7 j
  if places < 8 then return (byte >>> UInt8.ofNat places) &&& 1 == 1
  else throw .overflow

/-- Draws `count` pixels of a sprite's row from the `j`-th on, up to the right edge. -/
def plotColumns (fb : FrameBuffer) (x y : Nat) (byte : UInt8) (j : Nat) :
    Nat → Except Fault (FrameBuffer × Bool)
  | 0 => .ok (fb, false)
  | count + 1 =>
    if width ≤ x + j then .ok (fb, false)
    else do
      let bit ← spriteBit byte j
      let flipped ← fb.flip (x + j) y bit
      let rest ← plotColumns flipped.1 x y byte (j + 1) count
      return (rest.1, flipped.2 || rest.2)

/-- Draws a sprite's rows from row `y` downwards, up to the bottom edge. -/
def plotRows (fb : FrameBuffer) (x y : Nat) : List UInt8 → Except Fault (FrameBuffer × Bool)
  | [] => .ok (fb, false)
  | byte :: rest =>
    if height ≤ y then .ok (fb, false)
    else do
      let row ← fb.plotColumns x y byte 0 8
      let below ← plotRows row.1 x (y + 1) rest
      return (below.1, row.2 || below.2)

def plot (fb : FrameBuffer) (x y : UInt8) (sprite : List UInt8) :
    Except Fault (FrameBuffer × Bool) :=
  fb.plotRows x.toNat y.toNat sprite

/-- The part of a row from a column on. -/
def behind (column : Nat) (row : BitVec width) : BitVec width :=
  row &&& (BitVec.allOnes width >>> column)

theorem getMsbD_dot {column i : Nat} (inside : column < width) (bit : Bool) :
    (dot column bit).getMsbD i = (bit && decide (i = column)) := by
  cases bit with
  | false => simp [dot]
  | true =>
    have place : width - (width - 1 - column) - 1 = column := by omega
    have low : width - 1 - column < width := by omega
    simp only [dot, if_pos, BitVec.getMsbD_twoPow, place, decide_eq_true low, Bool.true_and]

theorem getMsbD_behind (column : Nat) (row : BitVec width) {i : Nat} (inside : i < width) :
    (behind column row).getMsbD i = (row.getMsbD i && decide (column ≤ i)) := by
  rw [behind, BitVec.getMsbD_and, BitVec.getMsbD_ushiftRight]
  by_cases left : i < column
  · simp [left]
  · simp [left, inside, Nat.le_of_not_lt left]
    omega

theorem ne_zero_iff (row : BitVec width) :
    (row != 0) = true ↔ ∃ i, i < width ∧ row.getMsbD i = true := by
  have dark (i : Nat) : (0 : BitVec width).getMsbD i = false := BitVec.getMsbD_zero
  rw [bne_iff_ne]
  constructor
  · intro lit
    apply Classical.byContradiction
    intro none
    apply lit
    apply BitVec.eq_of_getMsbD_eq
    intro i inside
    rw [dark]
    apply Bool.eq_false_iff.mpr
    intro on
    exact none ⟨i, inside, on⟩
  · rintro ⟨i, _, on⟩ zero
    rw [zero, dark] at on
    cases on

theorem behind_spriteRow_self (x : Nat) (byte : UInt8) :
    behind x (spriteRow x byte) = spriteRow x byte := by
  apply BitVec.eq_of_getMsbD_eq
  intro i inside
  rw [getMsbD_behind _ _ inside, getMsbD_spriteRow x byte inside]
  by_cases reached : x ≤ i
  · simp [reached]
  · simp [reached]

/-- Nothing of a sprite's row is left behind its eighth column or behind the right edge. -/
theorem behind_spriteRow_eq_zero {x j : Nat} (byte : UInt8) (past : 8 ≤ j ∨ width ≤ x + j) :
    behind (x + j) (spriteRow x byte) = 0 := by
  have dark (i : Nat) : (0 : BitVec width).getMsbD i = false := BitVec.getMsbD_zero
  apply BitVec.eq_of_getMsbD_eq
  intro i inside
  rw [getMsbD_behind _ _ inside, getMsbD_spriteRow x byte inside, dark]
  by_cases reached : x + j ≤ i
  · have outside : ¬ (x ≤ i ∧ i < x + 8) := by omega
    simp [outside]
  · simp [reached]

theorem behind_spriteRow {x j : Nat} (byte : UInt8) (column : j < 8) (inside : x + j < width) :
    behind (x + j) (spriteRow x byte) =
      dot (x + j) (byte.toBitVec.getMsbD j) ^^^ behind (x + (j + 1)) (spriteRow x byte) := by
  apply BitVec.eq_of_getMsbD_eq
  intro i bound
  rw [BitVec.getMsbD_xor, getMsbD_behind _ _ bound, getMsbD_behind _ _ bound,
    getMsbD_dot inside, getMsbD_spriteRow x byte bound]
  -- at the next column only the dot is lit, and everywhere else only what lies behind it
  by_cases here : i = x + j
  · subst here
    have place : x + j - x = j := by omega
    have covered : x ≤ x + j ∧ x + j < x + 8 := by omega
    have notNext : ¬ x + (j + 1) ≤ x + j := by omega
    simp only [place, covered, notNext, Nat.le_refl, and_self, decide_true, decide_false,
      Bool.true_and, Bool.and_true, Bool.and_false, Bool.xor_false]
  · by_cases reached : x + j ≤ i
    · have next : x + (j + 1) ≤ i := by omega
      simp [here, reached, next]
    · have notNext : ¬ x + (j + 1) ≤ i := by omega
      simp [here, reached, notNext]

theorem spriteBit_eq (byte : UInt8) {j : Nat} (column : j < 8) :
    spriteBit byte j = .ok (byte.toBitVec.getMsbD j) := by
  have low : j ≤ 7 := by omega
  have fits : 7 - j < 8 := by omega
  -- both sides are the binary digit of weight `2 ^ (7 - j)`
  have shifted : ((byte >>> UInt8.ofNat (7 - j)) &&& 1 == 1) = byte.toBitVec.getMsbD j := by
    rw [BitVec.getMsbD_eq_getLsbD, decide_eq_true column, Bool.true_and, Bool.eq_iff_iff,
      beq_iff_eq, ← UInt8.toNat_inj, UInt8.toNat_and, UInt8.toNat_shiftRight, UInt8.toNat_ofNat']
    have places : (7 - j) % 2 ^ 8 % 8 = 7 - j := by omega
    have one : (1 : UInt8).toNat = 1 := rfl
    rw [places, one, Nat.and_one_is_mod, Nat.shiftRight_eq_div_pow]
    show _ ↔ byte.toNat.testBit (8 - 1 - j) = true
    rw [Nat.testBit_eq_decide_div_mod_eq, decide_eq_true_iff]
  simp only [spriteBit, Fault.checkedSub, if_pos low, bind, Except.bind, if_pos fits, shifted, pure,
    Except.pure]

theorem hits_cons (row rest : BitVec width) {column : Nat} (inside : column < width) (bit : Bool)
    (apart : rest.getMsbD column = false) :
    (row.getMsbD column && bit || (row ^^^ dot column bit) &&& rest != 0)
      = (row &&& (dot column bit ^^^ rest) != 0) := by
  rw [Bool.eq_iff_iff, Bool.or_eq_true, ne_zero_iff, ne_zero_iff]
  simp only [BitVec.getMsbD_and, BitVec.getMsbD_xor, getMsbD_dot inside]
  -- the rest is dark at `column`, so a hit there is the dot's and a hit elsewhere is the rest's
  constructor
  · rintro (hit | ⟨i, bound, hit⟩)
    · refine ⟨column, inside, ?_⟩
      simpa [apart] using hit
    · refine ⟨i, bound, ?_⟩
      by_cases here : i = column
      · subst here
        simp [apart] at hit
      · simpa [here] using hit
  · rintro ⟨i, bound, hit⟩
    by_cases here : i = column
    · subst here
      left
      simpa [apart] using hit
    · right
      refine ⟨i, bound, ?_⟩
      simpa [here] using hit

theorem flip_eq (fb : FrameBuffer) {column row : Nat} (below : row < height)
    (inside : column < width) (bit : Bool) :
    fb.flip column row bit = .ok (⟨fb.rows.set row (fb.rows[row] ^^^ dot column bit)⟩,
      fb.rows[row].getMsbD column && bit) := by
  rw [flip, dif_pos ⟨below, inside⟩]

/-- The pixel loop draws what is left of the sprite's row in one go. -/
theorem plotColumns_eq (fb : FrameBuffer) (x : Nat) {y : Nat} (byte : UInt8) (below : y < height)
    (count j : Nat) (end_ : j + count = 8) :
    fb.plotColumns x y byte j count =
      .ok (⟨fb.rows.set y (fb.rows[y] ^^^ behind (x + j) (spriteRow x byte))⟩,
        fb.rows[y] &&& behind (x + j) (spriteRow x byte) != 0) := by
  -- on the columns to come; what was drawn of the row so far is part of `fb`
  induction count generalizing fb j with
  | zero =>
    rw [behind_spriteRow_eq_zero byte (.inl (by omega))]
    simp [plotColumns]
  | succ count ih =>
    by_cases past : width ≤ x + j
    · rw [plotColumns, if_pos past, behind_spriteRow_eq_zero byte (.inr past)]
      simp
    · have inside : x + j < width := Nat.lt_of_not_le past
      have column : j < 8 := by omega
      have apart : (behind (x + (j + 1)) (spriteRow x byte)).getMsbD (x + j) = false := by
        have notNext : ¬ x + (j + 1) ≤ x + j := by omega
        rw [getMsbD_behind _ _ inside, decide_eq_false notNext, Bool.and_false]
      rw [plotColumns, if_neg past, spriteBit_eq byte column]
      simp only [bind, Except.bind, pure, Except.pure]
      rw [flip_eq fb below inside]
      dsimp only
      rw [ih _ (j + 1) (by omega)]
      simp only [Vector.getElem_set_self, Vector.set_set]
      rw [hits_cons _ _ inside _ apart, BitVec.xor_assoc, ← behind_spriteRow byte column inside]

theorem plotRows_eq (fb : FrameBuffer) (x y : Nat) (sprite : List UInt8) :
    fb.plotRows x y sprite = .ok (fb.paintFrom x y sprite) := by
  induction sprite generalizing fb y with
  | nil => rfl
  | cons byte rest ih =>
    by_cases below : y < height
    · rw [plotRows, if_neg (Nat.not_le_of_lt below), plotColumns_eq fb x byte below 8 0 rfl,
        paintFrom, dif_pos below]
      simp only [bind, Except.bind, pure, Except.pure, Nat.add_zero, behind_spriteRow_self, ih]
    · rw [plotRows, if_pos (Nat.le_of_not_lt below), paintFrom, dif_neg below]

theorem plot_eq (fb : FrameBuffer) (x y : UInt8) (sprite : List UInt8) :
    fb.plot x y sprite = .ok (fb.paint x y sprite) :=
  plotRows_eq fb x.toNat y.toNat sprite

end FrameBuffer

/-! ## Counting down and glyph addresses -/

/-- One tick of a timer, with a checked difference. -/
def Timer.countDown (t : Timer) : Except Fault Timer :=
  if t.count = 0 then .ok t
  else do
    let left ← Fault.checkedSub t.count.toNat 1
    return ⟨UInt8.ofNat left⟩

theorem Timer.countDown_eq (t : Timer) : t.countDown = .ok t.tick := by
  unfold countDown tick
  split
  next => rfl
  next running =>
    have positive : 1 ≤ t.count.toNat := by
      have nonzero : t.count.toNat ≠ 0 := fun zero => running (UInt8.toNat_inj.mp zero)
      omega
    have difference : t.count - 1 = UInt8.ofNat (t.count.toNat - 1) := by
      have bound : t.count.toNat < 256 := t.count.toNat_lt
      have one : (1 : UInt8).toNat = 1 := rfl
      apply UInt8.toNat_inj.mp
      rw [UInt8.toNat_sub, UInt8.toNat_ofNat', one]
      omega
    simp only [Fault.checkedSub, if_pos positive, bind, Except.bind, pure, Except.pure, difference]

/-- A number as a word, if it fits. -/
def Fault.checkedWord (n : Nat) : Except Fault UInt16 :=
  if n < UInt16.size then .ok (UInt16.ofNat n) else .error .overflow

/-- The address of a digit's glyph, with a checked product and a checked sum. -/
def Memory.glyphAddress (digit : UInt8) : Except Fault UInt16 := do
  let offset ← Fault.checkedWord ((digit &&& 0xF).toNat * glyphLength.toNat)
  Fault.checkedWord (fontBase.toNat + offset.toNat)

theorem Memory.glyphAddress_eq (digit : UInt8) :
    glyphAddress digit = .ok (fontBase + (digit &&& 0xF).toUInt16 * glyphLength) := by
  have low : (digit &&& 0xF).toNat ≤ 15 := by
    rw [UInt8.toNat_and]
    exact Nat.and_le_right
  have length : glyphLength.toNat = 5 := rfl
  have base : fontBase.toNat = 0 := rfl
  unfold glyphAddress
  generalize digit &&& 0xF = d at low ⊢
  have product : d.toNat * glyphLength.toNat < UInt16.size := by
    rw [length, UInt16.size]
    omega
  have offset : (UInt16.ofNat (d.toNat * glyphLength.toNat)).toNat = d.toNat * 5 := by
    rw [UInt16.toNat_ofNat', length]
    omega
  have sum : fontBase.toNat + d.toNat * 5 < UInt16.size := by
    rw [base, UInt16.size]
    omega
  simp only [Fault.checkedWord, if_pos product, bind, Except.bind, offset, if_pos sum]
  congr 1
  apply UInt16.toNat_inj.mp
  rw [UInt16.toNat_ofNat', UInt16.toNat_add, UInt16.toNat_mul, UInt8.toNat_toUInt16, length]
  omega

end Chip8
