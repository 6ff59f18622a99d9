import Chip8.Keypad
import Chip8.Window

/-! # The screen

The machine's view of the window: it shows frames, it is the source of the keypad's keys, and its
title says whether the machine makes a sound.

    |1|2|3|C|      |1|2|3|4|
    |4|5|6|D|  ->  |Q|W|E|R|
    |7|8|9|E|  ->  |A|S|D|F|
    |A|0|B|F|      |Z|X|C|V|
-/

namespace Chip8

/-- A window with the buffer its pictures are made in. -/
structure Screen where
  window : Window
  pixels : PixelBuffer
  /-- The title says that there is a sound. -/
  beeping : Bool
  deriving DecidableEq

namespace Screen

/-- The title without a sound. -/
def quietTitle : String := "emuchip - ESC to exit"

/-- The title with a sound. -/
def beepTitle : String := quietTitle ++ " [beep]"

/-- The title with or without a sound. -/
def title (beeping : Bool) : String :=
  if beeping then beepTitle else quietTitle

/-- Microseconds between two updates: not quite sixty of them in a second. -/
def updateInterval : Nat := 16600

/-- The key that closes the window. -/
def escape : PhysicalKey := ⟨"Escape"⟩

/-- The physical key of each key of the keypad. -/
def keymap : Vector PhysicalKey 16 :=
  #v[⟨"X"⟩, ⟨"Key1"⟩, ⟨"Key2"⟩, ⟨"Key3"⟩,
     ⟨"Q"⟩, ⟨"W"⟩, ⟨"E"⟩, ⟨"A"⟩,
     ⟨"S"⟩, ⟨"D"⟩, ⟨"Z"⟩, ⟨"C"⟩,
     ⟨"Key4"⟩, ⟨"R"⟩, ⟨"F"⟩, ⟨"V"⟩]

/-- Opens the screen. -/
def create (script : Script) (scale : Scale) : Except WindowError Screen := do
  let window ← Window.create script scale quietTitle
  return { window := window.pace updateInterval, pixels := .initial, beeping := false }

/-- Whether the window is open and nobody asks to close it. -/
def isOpen (s : Screen) : Bool :=
  s.window.isOpen && !s.window.isHeld escape

/-- The keys of the keypad that are down. -/
def keys (s : Screen) : KeySource :=
  fun k => s.window.isHeld keymap[k]

/-- Lets a frame pass without a new picture. -/
def update (s : Screen) : Screen :=
  { s with window := s.window.update }

/-- Says in the title whether there is a sound, if it does not say so already. -/
def setBeeping (s : Screen) (beeping : Bool) : Screen :=
  if beeping = s.beeping then s
  else { s with beeping, window := s.window.setTitle (title beeping) }

/-- Shows a frame.  The screen is there even if that fails: its buffer holds the frame then. -/
def render (s : Screen) (frame : FrameBuffer) : Except WindowError Unit × Screen :=
  let pixels := s.pixels.blit frame
  match s.window.draw pixels with
  | .error cause => (.error cause, { s with pixels })
  | .ok window => (.ok (), { s with pixels, window })

end Screen

end Chip8
