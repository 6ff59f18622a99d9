import Chip8.FrameBuffer
import Chip8.Numeral

/-! # Pixels for a window

A window takes 24-bit colours, one per pixel, row by row from the top left.  The buffer is used
again for every frame, so putting a frame into it has to overwrite each of its entries.
-/

namespace Chip8

/-- The colours of a picture of 64 by 32 pixels, row by row. -/
structure PixelBuffer where
  pixels : Vector UInt32 2048
  deriving DecidableEq

namespace PixelBuffer

/-- A colour of three components. -/
def rgb (red green blue : UInt16) : UInt32 :=
  (red.toUInt32 <<< 16) ||| (green.toUInt32 <<< 8) ||| blue.toUInt32

/-- The colour of a pixel that is on. -/
def lit : UInt32 := rgb 0 127 255

/-- The colour of a pixel that is off. -/
def dark : UInt32 := rgb 0 0 0

/-- A buffer that no frame was put into. -/
def initial : PixelBuffer :=
  ⟨Vector.replicate 2048 0⟩

/-- The buffer with a frame put into it. -/
def blit (b : PixelBuffer) (frame : FrameBuffer) : PixelBuffer :=
  ⟨b.pixels.mapFinIdx fun i _ _ => if frame.isSet (i % 64) (i / 64) then lit else dark⟩

/-- The colour in column `x` of row `y`. -/
def colour (b : PixelBuffer) (x y : Nat) : UInt32 :=
  b.pixels[64 * y + x]?.getD 0

/-! ## Texts -/

/-- The different colours of a picture, in ascending order. -/
def colours (b : PixelBuffer) : List UInt32 :=
  ((b.pixels.toList.map fun c => c &&& 0xFFFFFF).eraseDups).mergeSort

/-- A row as a number with a bit for each pixel whose colour is not zero, the leftmost pixel in the
    most significant bit. -/
def rowBits (b : PixelBuffer) (y : Nat) : Nat :=
  (List.range 64).foldl (fun bits x => 2 * bits + if b.colour x y = 0 then 0 else 1) 0

/-- A row with its number in front, if any pixel of it has a colour. -/
def rowText (b : PixelBuffer) (y : Nat) : String :=
  let bits := b.rowBits y
  if bits = 0 then "" else " " ++ Numeral.decimal y ++ ":" ++ Numeral.hex 16 bits

/-- A picture in one line: its size, its colours, and the rows that are not empty. -/
def text (b : PixelBuffer) : String :=
  "64x32 " ++ ",".intercalate (b.colours.map fun c => Numeral.hex 6 c.toNat)
    ++ String.join ((List.range 32).map b.rowText)

end PixelBuffer

end Chip8
