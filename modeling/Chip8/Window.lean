import Chip8.CommandLine.Config
import Chip8.PixelBuffer
import Chip8.Setting

/-! # Scripted windows

A window that needs no screen.  A script says for how many frames it stays open, which keys are
held in each frame, and which of its operations fail; the window records what is done to it.  Each
update and each successful draw is one frame.
-/

namespace Chip8

/-- A key of the keyboard, by its name.  Names that no keyboard has are allowed. -/
structure PhysicalKey where
  name : String
  deriving DecidableEq, Repr, Inhabited

/-- What will happen to a window. -/
structure Script where
  /-- The number of frames for which the window is open. -/
  frames : Nat
  /-- The keys held in the first frame, in the second, and so on; afterwards none are. -/
  down : List (List PhysicalKey)
  failsToOpen : Bool
  /-- The frame in which drawing fails. -/
  failsToDraw : Option Nat
  deriving DecidableEq, Repr, Inhabited

namespace Script

/-- A window that closes at once. -/
def empty : Script :=
  { frames := 0, down := [], failsToOpen := false, failsToDraw := none }

def heldAt (s : Script) (frame : Nat) : List PhysicalKey :=
  s.down[frame]?.getD []

/-- The keys of one frame, separated by commas. -/
def readKeys (text : String) : List PhysicalKey :=
  (text.splitOn ",").map PhysicalKey.mk

/-- A script with what one part of its text says.  A part that is none of the four settings says
nothing. -/
def readPart (s : Script) (part : String) : Script :=
  let setting := Setting.ofChars part.toList
  match String.ofList setting.name, setting.value with
  | "frames", some count => { s with frames := (Numeral.ofDecimal? count).getD 0 }
  | "down", some frames => { s with down := ((String.ofList frames).splitOn "|").map readKeys }
  | "fail_new", none => { s with failsToOpen := true }
  | "fail_draw", some frame => { s with failsToDraw := Numeral.ofDecimal? frame }
  | _, _ => s

/-- The script of a text, whose parts are separated by semicolons. -/
def ofText (text : String) : Script :=
  (text.splitOn ";").foldl readPart empty

end Script

/-- Why an operation on a window failed. -/
inductive WindowError where
  | createFailed
  | updateFailed
  deriving DecidableEq, Repr, Inhabited

/-- The text of a window failure. -/
def WindowError.message : WindowError → String
  | .createFailed => "Failed to create window"
  | .updateFailed => "Failed to Update"

/-- What was done to a window. -/
inductive WindowEvent where
  | opened (scale : Scale) (title : String)
  /-- Its updates were spaced out to so many microseconds. -/
  | paced (microseconds : Nat)
  | titled (title : String)
  /-- A frame passed without a new picture. -/
  | updated
  /-- A frame passed with a new picture. -/
  | drawn (picture : PixelBuffer)
  deriving DecidableEq

/-- An event in one line. -/
def WindowEvent.line : WindowEvent → String
  | .opened scale title => "new 64x32 " ++ scale.name ++ " " ++ title
  | .paced microseconds => "limit Some(" ++ Numeral.decimal microseconds ++ ")"
  | .titled title => "title " ++ title
  | .updated => "update"
  | .drawn picture => "draw " ++ picture.text

/-- An open window: its script, the number of frames that passed, and what was done to it. -/
structure Window where
  script : Script
  counter : Nat
  events : Array WindowEvent
  deriving DecidableEq

namespace Window

def create (script : Script) (scale : Scale) (title : String) : Except WindowError Window :=
  if script.failsToOpen then .error .createFailed
  else .ok { script, counter := 0, events := #[.opened scale title] }

def isOpen (w : Window) : Bool :=
  decide (w.counter < w.script.frames)

def framesLeft (w : Window) : Nat :=
  w.script.frames - w.counter

/-- Whether a key is held in the current frame. -/
def isHeld (w : Window) (key : PhysicalKey) : Bool :=
  (w.script.heldAt w.counter).contains key

/-- The window with one more thing done to it. -/
def record (w : Window) (event : WindowEvent) : Window :=
  { w with events := w.events.push event }

/-- The window with one more frame passed. -/
def advance (w : Window) : Window :=
  { w with counter := w.counter + 1 }

/-- Spaces out the updates. -/
def pace (w : Window) (microseconds : Nat) : Window :=
  w.record (.paced microseconds)

def setTitle (w : Window) (title : String) : Window :=
  w.record (.titled title)

/-- Lets a frame pass without a new picture. -/
def update (w : Window) : Window :=
  (w.record .updated).advance

/-- Lets a frame pass with a new picture, or fails and lets none pass. -/
def draw (w : Window) (picture : PixelBuffer) : Except WindowError Window :=
  if w.script.failsToDraw = some w.counter then .error .updateFailed
  else .ok (w.record (.drawn picture)).advance

end Window

end Chip8
