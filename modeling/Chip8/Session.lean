import Chip8.Machine.Step
import Chip8.Screen

/-! # Sessions

A machine in front of a screen.  Each turn of a session runs a batch of instructions, lets the host
tick the timers if that is its business, and then shows the display or lets a frame pass.  A turn
that does not end the session uses up exactly one frame of the window, so a session ends at the
latest when the window has no frames left.
-/

namespace Chip8

/-- How a session drives its machine. -/
structure Pace where
  /-- Instructions per frame. -/
  cycles : Nat
  timerMode : TimerMode
  deriving DecidableEq, Repr, Inhabited

/-- Why a session ended. -/
inductive Ending where
  | closed
  /-- The program ran off the end of memory. -/
  | ranOff
  /-- The program ran into another fatal condition. -/
  | crashed (cause : MachineError)
  | notShown (cause : WindowError)
  | faulted (cause : Fault)
  deriving DecidableEq, Repr, Inhabited

/-- A machine, its screen, and the records logged so far. -/
structure Session where
  machine : Machine
  screen : Screen
  log : Array Notice

/-- What became of a turn. -/
inductive Turn where
  | next (s : Session)
  | over (s : Session) (ending : Ending)

namespace Session

def isOpen (s : Session) : Bool :=
  s.screen.isOpen && s.machine.isRunning

/-- Ticks the timers if that is left to the host. -/
def clock (s : Session) (mode : TimerMode) : Session :=
  match mode with
  | .perCycle => s
  | .realtime =>
    let ticked := s.machine.tickTimers
    { s with machine := ticked.1, log := s.log ++ ticked.2 }

/-- Says on the screen whether the machine makes a sound. -/
def beep (s : Session) : Session :=
  { s with screen := s.screen.setBeeping s.machine.soundActive }

/-- Shows the display if it was drawn on, or else lets a frame pass. -/
def present (s : Session) : Turn :=
  match s.machine.takeFrame with
  | (none, machine) => .next { s with machine, screen := s.screen.update }
  | (some frame, machine) =>
    match s.screen.render frame with
    | (.error cause, screen) => .over { s with machine, screen } (.notShown cause)
    | (.ok (), screen) => .next { s with machine, screen }

/-- Runs one batch, and goes on to the screen if the machine lived through it. -/
def turn (s : Session) (pace : Pace) : Turn :=
  let ran := s.machine.run pace.cycles s.screen.keys
  let s := { s with machine := ran.machine, log := s.log ++ ran.log }
  match ran.result with
  | .error (.error (.pcOutOfRange _)) => .over { s with log := s.log.push .ranOff } .ranOff
  | .error (.error cause) => .over s (.crashed cause)
  | .error (.fault cause) => .over s (.faulted cause)
  | .ok () => (s.clock pace.timerMode).beep.present

/-! ## A turn uses up a frame -/

theorem framesLeft_setBeeping (s : Screen) (beeping : Bool) :
    (s.setBeeping beeping).window.framesLeft = s.window.framesLeft := by
  unfold Screen.setBeeping
  split <;> rfl

theorem framesLeft_clock (s : Session) (mode : TimerMode) :
    (s.clock mode).screen.window.framesLeft = s.screen.window.framesLeft := by
  cases mode <;> rfl

/-- Showing a frame, or letting one pass, leaves one frame less. -/
theorem framesLeft_present {s t : Session} (went : s.present = .next t) :
    t.screen.window.framesLeft = s.screen.window.framesLeft - 1 := by
  unfold present at went
  split at went
  · cases went
    simp only [Screen.update, Window.update, Window.advance, Window.record, Window.framesLeft]
    omega
  · unfold Screen.render at went
    simp only at went
    cases drawn : s.screen.window.draw (s.screen.pixels.blit ‹_›) with
    | error cause => rw [drawn] at went; cases went
    | ok window =>
      rw [drawn] at went
      cases went
      unfold Window.draw at drawn
      split at drawn
      · cases drawn
      · cases drawn
        simp only [Window.advance, Window.record, Window.framesLeft]
        omega

theorem framesLeft_turn {s t : Session} {pace : Pace} (went : s.turn pace = .next t) :
    t.screen.window.framesLeft = s.screen.window.framesLeft - 1 := by
  unfold turn at went
  simp only at went
  split at went
  · cases went
  · cases went
  · cases went
  · rw [framesLeft_present went, beep, framesLeft_setBeeping, framesLeft_clock]

/-- A session that has another turn has a frame left. -/
theorem framesLeft_pos {s : Session} (opened : s.isOpen = true) :
    0 < s.screen.window.framesLeft := by
  simp only [isOpen, Screen.isOpen, Window.isOpen, Bool.and_eq_true, decide_eq_true_eq] at opened
  simp only [Window.framesLeft]
  omega

/-! ## Whole sessions -/

/-- Takes turns until the session ends. -/
def play (s : Session) (pace : Pace) : Session × Ending :=
  if _opened : s.isOpen = true then
    match _went : s.turn pace with
    | .next t => t.play pace
    | .over t ending => (t, ending)
  else
    (s, .closed)
termination_by s.screen.window.framesLeft
decreasing_by
  rw [framesLeft_turn _went]
  have := framesLeft_pos _opened
  omega

end Session

end Chip8
