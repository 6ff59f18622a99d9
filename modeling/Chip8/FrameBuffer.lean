/-! # The frame buffer

A grid of 64 by 32 pixels, kept as one 64-bit vector per row with the leftmost pixel in the most
significant bit.  A sprite is a list of bytes, one per row, and is drawn by exclusive or.  Moving a
sprite's byte into its columns is a right shift, which drops exactly the pixels past the right edge;
rows past the bottom edge are left out.
-/

namespace Chip8

namespace FrameBuffer

abbrev width : Nat := 64

abbrev height : Nat := 32

end FrameBuffer

/-- The rows of the grid, from the top. -/
structure FrameBuffer where
  rows : Vector (BitVec FrameBuffer.width) FrameBuffer.height
  deriving DecidableEq

namespace FrameBuffer

def blank : FrameBuffer :=
  ⟨Vector.replicate height 0⟩

/-- Whether the pixel in column `x` of row `y` is on; outside the grid none is. -/
def isSet (fb : FrameBuffer) (x y : Nat) : Bool :=
  if h : y < height then (fb.rows[y]).getMsbD x else false

def isBlank (fb : FrameBuffer) : Bool :=
  fb.rows.all (· == 0)

/-! ## Drawing -/

/-- A sprite's row moved right by `x` columns. -/
def spriteRow (x : Nat) (byte : UInt8) : BitVec width :=
  (byte.toBitVec.setWidth width <<< 56) >>> x

/-- Draws a sprite's rows from row `y` downwards; the answer says whether a pixel that was on was
    turned off. -/
def paintFrom (fb : FrameBuffer) (x y : Nat) : List UInt8 → FrameBuffer × Bool
  | [] => (fb, false)
  | byte :: rest =>
    if h : y < height then
      let old := fb.rows[y]
      let sprite := spriteRow x byte
      let below := paintFrom ⟨fb.rows.set y (old ^^^ sprite) h⟩ x (y + 1) rest
      (below.1, old &&& sprite != 0 || below.2)
    else
      (fb, false)

/-- Draws a sprite with its top left corner in column `x` of row `y`; the answer says whether a
    pixel that was on was turned off. -/
def paint (fb : FrameBuffer) (x y : UInt8) (sprite : List UInt8) : FrameBuffer × Bool :=
  fb.paintFrom x.toNat y.toNat sprite

/-- A moved sprite row has the sprite's bits in its eight columns and nothing elsewhere. -/
theorem getMsbD_spriteRow (x : Nat) (byte : UInt8) {column : Nat} (inside : column < width) :
    (spriteRow x byte).getMsbD column =
      (decide (x ≤ column ∧ column < x + 8) && byte.toBitVec.getMsbD (column - x)) := by
  rw [spriteRow, BitVec.getMsbD_ushiftRight, BitVec.getMsbD_shiftLeft, BitVec.getMsbD_setWidth]
  by_cases left : column < x
  · simp [left, Nat.not_le_of_lt left]
  · have reached : column - x + 56 + 8 - width = column - x := by simp only [width]; omega
    have shifted : width - 8 ≤ column - x + 56 := by simp only [width]; omega
    rw [reached]
    by_cases right : column < x + 8
    · simp [left, right, shifted, inside, Nat.le_of_not_lt left]
    · have far : byte.toBitVec.getMsbD (column - x) = false :=
        BitVec.getMsbD_of_ge _ _ (by omega)
      simp [far]

/-! ## Texts -/

/-- A row as marks, `#` for a pixel that is on and `.` for one that is off. -/
def rowMarks (row : BitVec width) : List Char :=
  (List.range width).map fun x => if row.getMsbD x then '#' else '.'

/-- The grid as marks, each row ended by a line feed. -/
def picture (fb : FrameBuffer) : String :=
  String.ofList (fb.rows.toList.flatMap fun row => rowMarks row ++ ['\n'])

end FrameBuffer

end Chip8
