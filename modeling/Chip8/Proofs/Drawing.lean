import Chip8.Proofs.Checked

/-! # Drawing in any order

Drawing is exclusive or, pixel by pixel, so what a list of sprites leaves on the grid hangs only on
how many of them cover each pixel.  Whether a sprite erases something does hang on what was drawn
before it, but whether any sprite of the list does is again a matter of counting.

The non-trivial ingredient is `collides_drawAll_iff`: at a pixel that was on, the first sprite that
covers it erases it, and at one that was off the second one does.
-/

namespace Chip8

/-- A place on the grid. -/
structure Pixel where
  column : Fin FrameBuffer.width
  row : Fin FrameBuffer.height

/-- A sprite and where its top left corner goes. -/
structure Drawing where
  x : UInt8
  y : UInt8
  sprite : List UInt8

namespace FrameBuffer

def isOn (fb : FrameBuffer) (p : Pixel) : Bool :=
  fb.isSet p.column p.row

/-- Whether a sprite at column `x` of row `y` has a bit on a pixel.  Its bytes are rows and their
    bits go from left to right; what would lie outside the grid is on no pixel. -/
def covers (x y : Nat) (sprite : List UInt8) (p : Pixel) : Bool :=
  decide (y ≤ p.row ∧ x ≤ p.column ∧ p.column < x + 8)
    && ((sprite[p.row - y]?).getD 0).toBitVec.getMsbD (p.column - x)

end FrameBuffer

namespace Drawing

def covers (d : Drawing) (p : Pixel) : Bool :=
  FrameBuffer.covers d.x.toNat d.y.toNat d.sprite p

/-- The number of drawings that have a bit on a pixel. -/
def coverage (ds : List Drawing) (p : Pixel) : Nat :=
  ds.countP (·.covers p)

end Drawing

namespace FrameBuffer

/-- Draws one sprite after the other; the answers say which of them turned a pixel off. -/
def drawAll (fb : FrameBuffer) : List Drawing → FrameBuffer × List Bool
  | [] => (fb, [])
  | d :: ds =>
    let drawn := fb.paint d.x d.y d.sprite
    let later := drawn.1.drawAll ds
    (later.1, drawn.2 :: later.2)

variable {fb fb' : FrameBuffer} {x y : Nat} {byte : UInt8} {rest sprite : List UInt8} {p : Pixel}

theorem eq_of_isOn (same : ∀ p, fb.isOn p = fb'.isOn p) : fb = fb' := by
  obtain ⟨rows⟩ := fb
  obtain ⟨rows'⟩ := fb'
  congr 1
  apply Vector.ext
  intro y below
  apply BitVec.eq_of_getMsbD_eq
  intro x inside
  have here := same ⟨⟨x, inside⟩, ⟨y, below⟩⟩
  simp only [isOn, isSet, dif_pos below] at here
  exact here

/-- A grid with one row replaced shows the new row there and the old rows elsewhere. -/
theorem isOn_setRow (fb : FrameBuffer) (row : BitVec width) (below : y < height) (p : Pixel) :
    (⟨fb.rows.set y row below⟩ : FrameBuffer).isOn p =
      if y = p.row then row.getMsbD p.column else fb.isOn p := by
  simp only [isOn, isSet, p.row.isLt, dif_pos, Vector.getElem_set]
  split <;> rfl

/-! ## One sprite -/

theorem covers_nil : covers x y [] p = false := by
  simp [covers]

theorem covers_above (above : p.row < y) : covers x y sprite p = false := by
  simp [covers, Nat.not_le_of_lt above]

/-- The first byte of a sprite is its row at `y`, and the other ones are a sprite below it. -/
theorem covers_cons :
    covers x y (byte :: rest) p =
      if y = p.row then (spriteRow x byte).getMsbD p.column else covers x (y + 1) rest p := by
  split
  next here =>
    rw [getMsbD_spriteRow x byte p.column.isLt]
    simp [covers, here]
  next away =>
    by_cases reached : y + 1 ≤ p.row
    · have index : p.row - y = (p.row - (y + 1)) + 1 := by omega
      have behind : y ≤ p.row := by omega
      simp only [covers, reached, behind, index, List.getElem?_cons_succ, true_and]
    · have above : p.row < y := by omega
      rw [covers_above above, covers_above (by omega)]

/-- Drawing a sprite flips the pixels that it covers. -/
theorem isOn_paintFrom (fb : FrameBuffer) (x y : Nat) (sprite : List UInt8) (p : Pixel) :
    (fb.paintFrom x y sprite).1.isOn p = (fb.isOn p ^^ covers x y sprite p) := by
  induction sprite generalizing fb y with
  | nil => simp [paintFrom, covers_nil]
  | cons byte rest ih =>
    by_cases below : y < height
    · simp only [paintFrom, dif_pos below]
      rw [ih, isOn_setRow, covers_cons]
      split
      next here =>
        subst here
        rw [covers_above (Nat.lt_succ_self _), Bool.xor_false, BitVec.getMsbD_xor]
        simp [isOn, isSet]
      next => rfl
    · have above : p.row < y := by
        have inside := p.row.isLt
        omega
      rw [paintFrom, dif_neg below, covers_above above, Bool.xor_false]

/-- Drawing a sprite turns a pixel off exactly when it covers one that is on. -/
theorem collides_paintFrom_iff (fb : FrameBuffer) (x y : Nat) (sprite : List UInt8) :
    (fb.paintFrom x y sprite).2 = true ↔ ∃ p, fb.isOn p = true ∧ covers x y sprite p = true := by
  induction sprite generalizing fb y with
  | nil => simp [paintFrom, covers_nil]
  | cons byte rest ih =>
    by_cases below : y < height
    · simp only [paintFrom, dif_pos below, Bool.or_eq_true, ih, ne_zero_iff, BitVec.getMsbD_and,
        Bool.and_eq_true, isOn_setRow]
      constructor
      · rintro (⟨column, inside, on, bit⟩ | ⟨p, on, bit⟩)
        · refine ⟨⟨⟨column, inside⟩, ⟨y, below⟩⟩, ?_, ?_⟩
          · simpa [isOn, isSet, below] using on
          · simpa [covers_cons] using bit
        · -- the sprite below has no bit in row `y`, so nothing was drawn on its pixels yet
          have away : ¬ y = p.row := by
            rintro rfl
            rw [covers_above (Nat.lt_succ_self _)] at bit
            cases bit
          rw [if_neg away] at on
          exact ⟨p, on, by rwa [covers_cons, if_neg away]⟩
      · rintro ⟨p, on, bit⟩
        rw [covers_cons] at bit
        split at bit
        next here =>
          subst here
          left
          refine ⟨p.column, p.column.isLt, ?_, bit⟩
          simpa [isOn, isSet] using on
        next away => exact .inr ⟨p, by rwa [if_neg away], bit⟩
    · rw [paintFrom, dif_neg below]
      constructor
      · intro collides
        cases collides
      · rintro ⟨p, _, bit⟩
        have inside := p.row.isLt
        rw [covers_above (by omega)] at bit
        cases bit

theorem isOn_paint (fb : FrameBuffer) (d : Drawing) (p : Pixel) :
    (fb.paint d.x d.y d.sprite).1.isOn p = (fb.isOn p ^^ d.covers p) :=
  isOn_paintFrom fb d.x.toNat d.y.toNat d.sprite p

theorem collides_paint_iff (fb : FrameBuffer) (d : Drawing) :
    (fb.paint d.x d.y d.sprite).2 = true ↔ ∃ p, fb.isOn p = true ∧ d.covers p = true :=
  collides_paintFrom_iff fb d.x.toNat d.y.toNat d.sprite

/-! ## Many sprites -/

theorem coverage_cons (d : Drawing) (ds : List Drawing) (p : Pixel) :
    Drawing.coverage (d :: ds) p = Drawing.coverage ds p + if d.covers p then 1 else 0 :=
  List.countP_cons

theorem isOn_drawAll (fb : FrameBuffer) (ds : List Drawing) (p : Pixel) :
    (fb.drawAll ds).1.isOn p = (fb.isOn p ^^ decide (Drawing.coverage ds p % 2 = 1)) := by
  induction ds generalizing fb with
  | nil => simp [drawAll, Drawing.coverage]
  | cons d ds ih =>
    simp only [drawAll]
    rw [ih, isOn_paint, coverage_cons]
    cases d.covers p with
    | false => simp
    | true =>
      -- one more sprite turns an odd number into an even one and the other way round
      by_cases odd : Drawing.coverage ds p % 2 = 1
      · have even : ¬ (Drawing.coverage ds p + 1) % 2 = 1 := by omega
        simp [odd, even]
      · have even : (Drawing.coverage ds p + 1) % 2 = 1 := by omega
        simp [odd, even]

theorem collides_drawAll_iff (fb : FrameBuffer) (ds : List Drawing) :
    true ∈ (fb.drawAll ds).2 ↔
      ∃ p, fb.isOn p = true ∧ 1 ≤ Drawing.coverage ds p ∨ 2 ≤ Drawing.coverage ds p := by
  induction ds generalizing fb with
  | nil => simp [drawAll, Drawing.coverage]
  | cons d ds ih =>
    simp only [drawAll, List.mem_cons]
    rw [ih, eq_comm, collides_paint_iff, ← exists_or]
    apply exists_congr
    intro p
    rw [isOn_paint, coverage_cons]
    -- four cases at each pixel: whether it was on, and whether this sprite covers it
    cases fb.isOn p with
    | false =>
      cases d.covers p with
      | false => simp
      | true =>
        simp
        omega
    | true =>
      cases d.covers p with
      | false => simp
      | true => simp

/-- Drawing is independent of its order.  The grid that a list of sprites leaves has a pixel flipped
    for each sprite that covers it; and some sprite erases a pixel exactly when some pixel is
    covered that was on, or covered twice.  So a sprite that is drawn twice leaves no trace, and
    one of the two drawings erases something unless the sprite has no bit on the grid. -/
theorem drawAll_independent_of_order (fb : FrameBuffer) (ds : List Drawing) :
    (∀ ds', ds.Perm ds' → (fb.drawAll ds').1 = (fb.drawAll ds).1
        ∧ (true ∈ (fb.drawAll ds').2 ↔ true ∈ (fb.drawAll ds).2))
      ∧ (∀ p, (fb.drawAll ds).1.isOn p
          = (fb.isOn p ^^ decide (Drawing.coverage ds p % 2 = 1)))
      ∧ (true ∈ (fb.drawAll ds).2 ↔
          ∃ p, fb.isOn p = true ∧ 1 ≤ Drawing.coverage ds p ∨ 2 ≤ Drawing.coverage ds p)
      ∧ ∀ d, (fb.drawAll [d, d]).1 = fb
          ∧ (true ∈ (fb.drawAll [d, d]).2 ↔ ∃ p, d.covers p = true) := by
  refine ⟨?_, isOn_drawAll fb ds, collides_drawAll_iff fb ds, ?_⟩
  · intro ds' perm
    have counted : ∀ p, Drawing.coverage ds' p = Drawing.coverage ds p := fun p =>
      (perm.countP_eq _).symm
    constructor
    · apply eq_of_isOn
      intro p
      rw [isOn_drawAll, isOn_drawAll, counted]
    · simp only [collides_drawAll_iff, counted]
  · intro d
    have twice : ∀ p, Drawing.coverage [d, d] p = if d.covers p then 2 else 0 := by
      intro p
      rw [coverage_cons, coverage_cons]
      cases d.covers p <;> rfl
    constructor
    · apply eq_of_isOn
      intro p
      rw [isOn_drawAll, twice]
      cases d.covers p <;> simp
    · rw [collides_drawAll_iff]
      apply exists_congr
      intro p
      rw [twice]
      cases d.covers p <;> simp

/-- Two sprites that overlap in the last column of the bottom row, where both are cut off. -/
def corner : List Drawing :=
  [⟨60, 30, [0x0F, 0xFF]⟩, ⟨63, 31, [0x80, 0xFF]⟩]

theorem drawAll_corner :
    corner.Perm corner.reverse
      ∧ (blank.drawAll corner.reverse).1 = (blank.drawAll corner).1
      ∧ true ∈ (blank.drawAll corner.reverse).2
      ∧ (blank.drawAll corner).1.isOn ⟨63, 31⟩ = false
      ∧ (blank.drawAll corner).1.isOn ⟨62, 31⟩ = true := by
  have perm : corner.Perm corner.reverse := (List.reverse_perm corner).symm
  obtain ⟨reordered, pixels, collides, _⟩ := drawAll_independent_of_order blank corner
  obtain ⟨same, answers⟩ := reordered _ perm
  refine ⟨perm, same, answers.mpr (collides.mpr ⟨⟨63, 31⟩, .inr ?_⟩), ?_, ?_⟩
  · decide
  · rw [pixels]
    decide
  · rw [pixels]
    decide

end FrameBuffer

end Chip8
