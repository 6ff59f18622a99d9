import Chip8.Error
import Chip8.Timer

/-! # Configurations

What a run can be told: which program, how fast, how the timers are clocked and how large the
window is.  The instruction rate is turned into a batch of instructions per frame by rounding.
-/

namespace Chip8

/-- Window pixels per pixel of the display, in each direction. -/
inductive Scale where
  | x1
  | x2
  | x4
  | x8
  | x16
  | x32
  deriving DecidableEq, Repr, Inhabited

namespace Scale

/-- The name of a scale. -/
def name : Scale → String
  | .x1 => "X1"
  | .x2 => "X2"
  | .x4 => "X4"
  | .x8 => "X8"
  | .x16 => "X16"
  | .x32 => "X32"

/-- The factor, as it is written on the command line. -/
def word : Scale → String
  | .x1 => "1"
  | .x2 => "2"
  | .x4 => "4"
  | .x8 => "8"
  | .x16 => "16"
  | .x32 => "32"

/-- Every scale. -/
def all : List Scale :=
  [.x1, .x2, .x4, .x8, .x16, .x32]

/-- The scale that a word names. -/
def ofWord? (w : String) : Option Scale :=
  all.find? fun s => s.word == w

end Scale

namespace TimerMode

/-- A timer mode, as it is written on the command line. -/
def word : TimerMode → String
  | .perCycle => "per-cycle"
  | .realtime => "realtime"

/-- The timer mode that a word names. -/
def ofWord? (w : String) : Option TimerMode :=
  [TimerMode.perCycle, TimerMode.realtime].find? fun m => m.word == w

end TimerMode

/-- What a run was told. -/
structure Config where
  /-- The path of the program. -/
  rom : String
  /-- Instructions per second. -/
  cyclesPerSecond : UInt32
  timerMode : TimerMode
  scale : Scale
  deriving DecidableEq, Repr, Inhabited

namespace Config

/-- Frames per second. -/
def frameRate : Nat := 60

/-- The instruction rate if none is given: one instruction per frame. -/
def standardRate : UInt32 := 60

/-- Instructions to run between two frames: the rate over the frame rate, rounded, and at least one.
    Adding half a frame rate has to fit the 32 bits of the rate. -/
def cyclesPerFrame (c : Config) : Except Fault Nat :=
  if c.cyclesPerSecond.toNat + frameRate / 2 < UInt32.size then
    .ok (max 1 ((c.cyclesPerSecond.toNat + frameRate / 2) / frameRate))
  else
    .error .overflow

end Config

end Chip8
