import Chip8.Proofs.Drawing

/-! # Drawing past the edges

Drawing on the grid is drawing on a plane without edges and looking at the plane through the grid's
window.  On the plane a sprite is drawn pixel by pixel, all of its rows and all eight columns of
each (`Plane.draw`); the grid leaves out what lies past an edge, and nothing comes in again on the
other side.

The non-trivial ingredient is `Plane.draw_apply`: each pixel of the plane is flipped at most once,
by the one bit of the sprite that lies on it.
-/

namespace Chip8

/-- Pixels by column and row, without an edge on the right or at the bottom. -/
abbrev Plane := Nat → Nat → Bool

namespace Plane

def flip (p : Plane) (column row : Nat) (bit : Bool) : Plane :=
  fun c r => if c = column ∧ r = row then p c r ^^ bit else p c r

/-- Draws one byte of a sprite, its most significant bit in column `x`. -/
def drawByte (p : Plane) (x y : Nat) (byte : UInt8) : Plane :=
  (List.range 8).foldl (fun p j => p.flip (x + j) y (byte.toNat.testBit (7 - j))) p

/-- Draws a sprite with its top left corner in column `x` of row `y`. -/
def draw (p : Plane) (x y : Nat) : List UInt8 → Plane
  | [] => p
  | byte :: rest => (p.drawByte x y byte).draw x (y + 1) rest

/-- The bit of a sprite that lies on a pixel of the plane; around the sprite there is none. -/
def spriteAt (x y : Nat) (sprite : List UInt8) (column row : Nat) : Bool :=
  if inside : (x ≤ column ∧ column < x + 8) ∧ y ≤ row ∧ row < y + sprite.length then
    sprite[row - y].toNat.testBit (7 - (column - x))
  else false

/-- Whether a grid is what can be seen of a plane. -/
def CroppedTo (p : Plane) (fb : FrameBuffer) : Prop :=
  ∀ column < FrameBuffer.width, ∀ row < FrameBuffer.height, fb.isSet column row = p column row

variable {p : Plane} {x y column row : Nat} {byte : UInt8} {rest sprite : List UInt8}

/-! ## One pixel of the plane -/

theorem spriteAt_outside
    (outside : ¬ ((x ≤ column ∧ column < x + 8) ∧ y ≤ row ∧ row < y + sprite.length)) :
    spriteAt x y sprite column row = false :=
  dif_neg outside

theorem spriteAt_above (above : row < y) : spriteAt x y sprite column row = false :=
  spriteAt_outside (by omega)

theorem spriteAt_cons :
    spriteAt x y (byte :: rest) column row =
      if row = y then
        decide (x ≤ column ∧ column < x + 8) && byte.toNat.testBit (7 - (column - x))
      else spriteAt x (y + 1) rest column row := by
  by_cases here : row = y
  · rw [if_pos here, here]
    by_cases covered : x ≤ column ∧ column < x + 8
    · simp [spriteAt, covered]
    · simp [spriteAt, covered]
  · -- below its first row the sprite is the rest of it, one row further down
    have same : ((x ≤ column ∧ column < x + 8) ∧ y ≤ row ∧ row < y + (byte :: rest).length) ↔
        (x ≤ column ∧ column < x + 8) ∧ y + 1 ≤ row ∧ row < y + 1 + rest.length := by
      rw [List.length_cons]
      omega
    rw [if_neg here]
    by_cases inside : (x ≤ column ∧ column < x + 8) ∧ y + 1 ≤ row ∧ row < y + 1 + rest.length
    · have index : row - y = (row - (y + 1)) + 1 := by omega
      rw [spriteAt, spriteAt, dif_pos (same.mpr inside), dif_pos inside]
      simp only [index, List.getElem_cons_succ]
    · rw [spriteAt_outside inside, spriteAt_outside (mt same.mp inside)]

theorem flips_apply (p : Plane) (x y : Nat) (byte : UInt8) (column row count : Nat) :
    (List.range count).foldl (fun p j => p.flip (x + j) y (byte.toNat.testBit (7 - j))) p column row
      = (p column row ^^ (decide (row = y ∧ x ≤ column ∧ column < x + count)
          && byte.toNat.testBit (7 - (column - x)))) := by
  induction count with
  | zero =>
    have outside : ¬ (row = y ∧ x ≤ column ∧ column < x + 0) := by omega
    rw [decide_eq_false outside, Bool.false_and, Bool.xor_false]
    rfl
  | succ count ih =>
    rw [List.range_succ, List.foldl_append, List.foldl_cons, List.foldl_nil, flip, ih]
    split
    next here =>
      -- this is the one bit for the pixel: the columns up to here do not reach it
      have before : ¬ (row = y ∧ x ≤ column ∧ column < x + count) := by omega
      have reached : row = y ∧ x ≤ column ∧ column < x + (count + 1) := by omega
      have place : column - x = count := by omega
      rw [decide_eq_false before, decide_eq_true reached, place, Bool.false_and, Bool.xor_false,
        Bool.true_and]
    next away =>
      have same : (row = y ∧ x ≤ column ∧ column < x + count) ↔
          (row = y ∧ x ≤ column ∧ column < x + (count + 1)) := by omega
      simp only [same]

/-- Drawing a sprite flips the pixels on which it has a bit, each of them once. -/
theorem draw_apply (p : Plane) (x y : Nat) (sprite : List UInt8) (column row : Nat) :
    p.draw x y sprite column row = (p column row ^^ spriteAt x y sprite column row) := by
  induction sprite generalizing p y with
  | nil =>
    have outside : ¬ ((x ≤ column ∧ column < x + 8) ∧ y ≤ row ∧ row < y + 0) := by omega
    rw [draw, spriteAt_outside outside, Bool.xor_false]
  | cons byte rest ih =>
    rw [draw, ih, drawByte, flips_apply, spriteAt_cons]
    by_cases here : row = y
    · rw [if_pos here, spriteAt_above (by omega), Bool.xor_false]
      simp only [here, true_and]
    · simp only [here, false_and, decide_false, Bool.false_and, Bool.xor_false, if_false]

end Plane

namespace FrameBuffer

open Plane (spriteAt)

variable {fb fb' : FrameBuffer} {x y : Nat} {sprite : List UInt8} {column row : Nat}

/-! ## The part of the plane that the grid shows -/

/-- On the grid a sprite has the bits that it has on the plane. -/
theorem covers_eq_spriteAt (p : Pixel) :
    covers x y sprite p = spriteAt x y sprite p.column p.row := by
  unfold covers spriteAt
  split
  next inside =>
    obtain ⟨⟨left, right⟩, above, below⟩ := inside
    have index : p.row - y < sprite.length := by omega
    have fits : p.column - x < 8 := by omega
    have covered : y ≤ p.row ∧ x ≤ p.column ∧ p.column < x + 8 := ⟨above, left, right⟩
    rw [decide_eq_true covered, Bool.true_and, List.getElem?_eq_getElem index, Option.getD_some,
      BitVec.getMsbD_eq_getLsbD, decide_eq_true fits, Bool.true_and]
    rfl
  next outside =>
    by_cases covered : y ≤ p.row ∧ x ≤ p.column ∧ p.column < x + 8
    · have past : sprite.length ≤ p.row - y := by omega
      rw [List.getElem?_eq_none past]
      simp
    · rw [decide_eq_false covered, Bool.false_and]

theorem isSet_paint (fb : FrameBuffer) (x y : UInt8) (sprite : List UInt8)
    (inside : column < width) (below : row < height) :
    (fb.paint x y sprite).1.isSet column row =
      (fb.isSet column row ^^ spriteAt x.toNat y.toNat sprite column row) := by
  have flipped := isOn_paint fb ⟨x, y, sprite⟩ ⟨⟨column, inside⟩, ⟨row, below⟩⟩
  rw [Drawing.covers, covers_eq_spriteAt] at flipped
  exact flipped

theorem paint_collides_iff (fb : FrameBuffer) (x y : UInt8) (sprite : List UInt8) :
    (fb.paint x y sprite).2 = true ↔ ∃ column < width, ∃ row < height,
      fb.isSet column row = true ∧ spriteAt x.toNat y.toNat sprite column row = true := by
  rw [collides_paint_iff fb ⟨x, y, sprite⟩]
  simp only [Drawing.covers, covers_eq_spriteAt]
  constructor
  · rintro ⟨p, on, bit⟩
    exact ⟨p.column, p.column.isLt, p.row, p.row.isLt, on, bit⟩
  · rintro ⟨column, inside, row, below, on, bit⟩
    exact ⟨⟨⟨column, inside⟩, ⟨row, below⟩⟩, on, bit⟩

theorem eq_of_isSet (same : ∀ column < width, ∀ row < height,
    fb.isSet column row = fb'.isSet column row) : fb = fb' :=
  eq_of_isOn fun p => same p.column p.column.isLt p.row p.row.isLt

/-- A sprite that starts past an edge changes nothing. -/
theorem paint_past (fb : FrameBuffer) {x y : UInt8} (sprite : List UInt8)
    (past : width ≤ x.toNat ∨ height ≤ y.toNat) : fb.paint x y sprite = (fb, false) := by
  have dark : ∀ column < width, ∀ row < height,
      spriteAt x.toNat y.toNat sprite column row = false := by
    intro column inside row below
    exact Plane.spriteAt_outside (by omega)
  apply Prod.ext
  · apply eq_of_isSet
    intro column inside row below
    rw [isSet_paint fb x y sprite inside below, dark column inside row below, Bool.xor_false]
  · apply eq_false_of_ne_true
    rw [paint_collides_iff]
    rintro ⟨column, inside, row, below, _, bit⟩
    rw [dark column inside row below] at bit
    cases bit

/-- Drawing is drawing on a plane without edges and looking at it through the grid's window.  Each
    pixel of the grid is flipped if the sprite has a bit on it, and some pixel is reported to be
    turned off exactly if one was on under such a bit.  Nothing wraps around: a sprite that starts
    past an edge changes nothing.  Drawing pixel by pixel up to the edges does the same and runs
    into no fault. -/
theorem paint_crops_plane (fb : FrameBuffer) (x y : UInt8) (sprite : List UInt8) :
    (∀ fb', (Plane.draw fb.isSet x.toNat y.toNat sprite).CroppedTo fb' ↔
        fb' = (fb.paint x y sprite).1)
      ∧ (∀ column < width, ∀ row < height, (fb.paint x y sprite).1.isSet column row
          = (fb.isSet column row ^^ spriteAt x.toNat y.toNat sprite column row))
      ∧ ((fb.paint x y sprite).2 = true ↔ ∃ column < width, ∃ row < height,
          fb.isSet column row = true ∧ spriteAt x.toNat y.toNat sprite column row = true)
      ∧ (width ≤ x.toNat ∨ height ≤ y.toNat → fb.paint x y sprite = (fb, false))
      ∧ fb.plot x y sprite = .ok (fb.paint x y sprite) := by
  have flipped : ∀ column < width, ∀ row < height, (fb.paint x y sprite).1.isSet column row
      = (fb.isSet column row ^^ spriteAt x.toNat y.toNat sprite column row) :=
    fun column inside row below => isSet_paint fb x y sprite inside below
  refine ⟨?_, flipped, paint_collides_iff fb x y sprite, paint_past fb sprite,
    plot_eq fb x y sprite⟩
  intro fb'
  have seen : (Plane.draw fb.isSet x.toNat y.toNat sprite).CroppedTo fb' ↔
      ∀ column < width, ∀ row < height,
        fb'.isSet column row = (fb.paint x y sprite).1.isSet column row := by
    unfold Plane.CroppedTo
    simp only [Plane.draw_apply]
    constructor
    · intro cropped column inside row below
      rw [cropped column inside row below, flipped column inside row below]
    · intro same column inside row below
      rw [same column inside row below, flipped column inside row below]
  rw [seen]
  constructor
  · exact eq_of_isSet
  · rintro rfl column inside row below
    rfl

/-- A sprite of three full rows in the bottom right corner. -/
def cornered : FrameBuffer × Bool :=
  blank.paint 60 30 [0xFF, 0xFF, 0xFF]

theorem paint_crops_plane_cornered :
    cornered.1.isSet 63 31 = true ∧ cornered.1.isSet 0 31 = false ∧ cornered.1.isSet 60 0 = false
      ∧ (cornered.1.paint 63 31 [0x80, 0x80]).2 = true
      ∧ cornered.1.paint 200 5 [0xFF] = (cornered.1, false) := by
  have lit : blank.isSet 63 31 = false ∧ blank.isSet 0 31 = false ∧ blank.isSet 60 0 = false := by
    decide
  obtain ⟨_, pixels, _⟩ := paint_crops_plane blank 60 30 [0xFF, 0xFF, 0xFF]
  obtain ⟨_, _, collides, _⟩ := paint_crops_plane cornered.1 63 31 [0x80, 0x80]
  obtain ⟨_, _, _, past, _⟩ := paint_crops_plane cornered.1 200 5 [0xFF]
  have on : cornered.1.isSet 63 31 = true := by
    rw [cornered, pixels 63 (by decide) 31 (by decide), lit.1]
    decide
  refine ⟨on, ?_, ?_, collides.mpr ⟨63, by decide, 31, by decide, on, by decide⟩, past (by decide)⟩
  · rw [cornered, pixels 0 (by decide) 31 (by decide), lit.2.1]
    decide
  · rw [cornered, pixels 60 (by decide) 0 (by decide), lit.2.2]
    decide

end FrameBuffer

end Chip8
