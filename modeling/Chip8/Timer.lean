/-! # Timers

A timer counts down to zero and stays there.  The two timers of a machine are clocked either once
per executed cycle or by whoever drives the machine, at the frame rate.
-/

namespace Chip8

/-- How the timers are clocked. -/
inductive TimerMode where
  /-- One tick at the end of each executed cycle. -/
  | perCycle
  /-- The host ticks the timers, once per frame. -/
  | realtime
  deriving DecidableEq, Repr, Inhabited

def TimerMode.name : TimerMode → String
  | .perCycle => "PerCycle"
  | .realtime => "Realtime"

/-- A timer, as the ticks that are left. -/
structure Timer where
  count : UInt8
  deriving DecidableEq, Repr, Inhabited

namespace Timer

def initial : Timer :=
  ⟨0⟩

def isActive (t : Timer) : Bool :=
  decide (0 < t.count)

def tick (t : Timer) : Timer :=
  if t.count = 0 then t else ⟨t.count - 1⟩

/-- Whether the next tick is the last one. -/
def expires (t : Timer) : Bool :=
  t.count == 1

end Timer

end Chip8
