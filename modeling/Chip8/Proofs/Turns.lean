import Chip8.Program
import Chip8.Proofs.Clocking

/-! # What one turn of a session can do

`Session.Turned` inverts a turn: the batch fails and the session is over, or it goes well and the
screen is served, which fails or brings the session to its next turn.  A session that was prepared
from a configuration stays ready from turn to turn (`Ready`): its machine is not halted, so every
turn starts with a step that does something.
-/

namespace Chip8

/-- The fatal conditions that the program did not mean; running off the end of memory is an end like
    any other. -/
def MachineError.Crash : MachineError → Prop
  | .pcOutOfRange _ => False
  | .stackOverflow _ | .stackUnderflow _ | .memoryOutOfBounds _ => True

theorem Window.of_draw {w w' : Window} {picture : PixelBuffer}
    (accepted : w.draw picture = .ok w') : w' = (w.record (.drawn picture)).advance := by
  unfold draw at accepted
  split at accepted
  next => cases accepted
  next => exact (Except.ok.inj accepted).symm

namespace Machine

variable {m : Machine} {keys : KeySource} {n : Nat}

theorem step_timerMode (m : Machine) (keys : KeySource) :
    (m.step keys).machine.timerMode = m.timerMode := by
  have step := m.stepped keys
  generalize (m.step keys).result = result, (m.step keys).machine = machine at step ⊢
  cases step with
  | halted | ranOff | failed | faulted => rfl
  | waiting | received => exact cycleTimers_timerMode _
  | executed => exact (cycleTimers_timerMode _).trans (execute_timerMode _ _)

theorem run_timerMode (m : Machine) (keys : KeySource) (n : Nat) :
    (m.run n keys).machine.timerMode = m.timerMode := by
  refine run_composes (R := fun m _ m' => m'.timerMode = m.timerMode) ?_ ?_ ?_ m keys n
  · intro m
    rfl
  · intro moment
    exact step_timerMode moment.machine moment.keys
  · intro _ _ _ _ _ first second
    exact second.trans first

theorem run_awake (awake : m.state ≠ .halted) (done : (m.run n keys).result = .ok ()) :
    (m.run n keys).machine.state ≠ .halted := by
  induction n generalizing m with
  | zero => exact awake
  | succ n ih =>
    cases first : (m.step keys).result with
    | error cause =>
      rw [(run_of_error n first).1] at done
      cases done
    | ok answer =>
      have awake' := awake_of_ok awake first
      by_cases halted : answer = .halted
      · rw [halted] at first
        rw [(run_of_halted n first).2]
        exact awake'
      · obtain ⟨result, machine⟩ := run_of_ok n first halted
        rw [machine]
        exact ih awake' (result.symm.trans done)

end Machine

namespace Session

variable {s t u : Session} {pace : Pace} {k n : Nat}

/-- What becomes of the batch of a turn. -/
def outcome (s : Session) (pace : Pace) : Outcome Unit :=
  s.machine.run pace.cycles s.screen.keys

/-- The steps of the batch of a turn. -/
def batch (s : Session) (pace : Pace) : List Moment :=
  s.machine.runMoments s.screen.keys pace.cycles

/-- The session behind its batch. -/
def ran (s : Session) (pace : Pace) : Session :=
  { s with machine := (s.outcome pace).machine, log := s.log ++ (s.outcome pace).log }

/-- The session behind a batch that went well, with timers and title seen to. -/
def staged (s : Session) (pace : Pace) : Session :=
  ((s.ran pace).clock pace.timerMode).beep

/-- The picture that is drawn if the display was drawn on. -/
def picture (s : Session) : PixelBuffer :=
  s.screen.pixels.blit s.machine.display

/-- The endings of a turn. -/
inductive Turned (s : Session) (pace : Pace) : Turn → Prop
  | ranOff {pc} (failed : (s.outcome pace).result = .error (.error (.pcOutOfRange pc))) :
      s.Turned pace (.over { s.ran pace with log := (s.ran pace).log.push .ranOff } .ranOff)
  | crashed {cause} (failed : (s.outcome pace).result = .error (.error cause))
      (crash : cause.Crash) :
      s.Turned pace (.over (s.ran pace) (.crashed cause))
  | faulted {cause} (faulty : (s.outcome pace).result = .error (.fault cause)) :
      s.Turned pace (.over (s.ran pace) (.faulted cause))
  | notShown {cause} (done : (s.outcome pace).result = .ok ())
      (raised : (s.staged pace).machine.redraw = true)
      (refused : (s.staged pace).screen.window.draw (s.staged pace).picture = .error cause) :
      s.Turned pace (.over
        { s.staged pace with
          machine := { (s.staged pace).machine with redraw := false }
          screen := { (s.staged pace).screen with pixels := (s.staged pace).picture } }
        (.notShown cause))
  | drawn {window} (done : (s.outcome pace).result = .ok ())
      (raised : (s.staged pace).machine.redraw = true)
      (accepted : (s.staged pace).screen.window.draw (s.staged pace).picture = .ok window) :
      s.Turned pace (.next
        { s.staged pace with
          machine := { (s.staged pace).machine with redraw := false }
          screen := { (s.staged pace).screen with pixels := (s.staged pace).picture, window } })
  | updated (done : (s.outcome pace).result = .ok ())
      (lowered : (s.staged pace).machine.redraw = false) :
      s.Turned pace (.next { s.staged pace with screen := (s.staged pace).screen.update })

theorem turn_of_ok (done : (s.outcome pace).result = .ok ()) :
    s.turn pace = (s.staged pace).present := by
  rw [outcome] at done
  rw [turn]
  dsimp only
  rw [done]
  rfl

theorem turned_of_error {cause : Stop} (stopped : (s.outcome pace).result = .error cause) :
    s.Turned pace (s.turn pace) := by
  have result := stopped
  rw [outcome] at result
  rw [turn]
  dsimp only
  rw [result]
  cases cause with
  | error cause =>
    cases cause with
    | pcOutOfRange => exact .ranOff stopped
    | stackOverflow | stackUnderflow | memoryOutOfBounds => exact .crashed stopped trivial
  | fault cause => exact .faulted stopped

theorem turned (s : Session) (pace : Pace) : s.Turned pace (s.turn pace) := by
  cases result : (s.outcome pace).result with
  | error cause => exact turned_of_error result
  | ok =>
    rw [turn_of_ok result]
    unfold present Machine.takeFrame
    -- a lowered flag lets the frame pass, a raised one draws, and only drawing can go wrong
    cases raised : (s.staged pace).machine.redraw with
    | false => exact .updated result raised
    | true =>
      rw [if_pos rfl]
      dsimp only [Screen.render]
      cases shown : (s.staged pace).screen.window.draw (s.staged pace).picture with
      | error cause =>
        rw [picture] at shown
        rw [shown]
        exact .notShown result raised shown
      | ok window =>
        rw [picture] at shown
        rw [shown]
        exact .drawn result raised shown

/-! ## Between the batch and the display -/

/-- What is done to the title in a turn whose batch went well. -/
def titles (s : Session) (pace : Pace) : List WindowEvent :=
  if (s.staged pace).machine.soundActive = s.screen.beeping then []
  else [.titled (Screen.title (s.staged pace).machine.soundActive)]

theorem staged_machine (s : Session) (pace : Pace) : (s.staged pace).machine =
    match pace.timerMode with
    | .perCycle => (s.outcome pace).machine
    | .realtime => (s.outcome pace).machine.tickTimers.1 := by
  show ((s.ran pace).clock pace.timerMode).machine = _
  cases pace.timerMode with
  | perCycle => rfl
  | realtime => rfl

theorem staged_untimed (s : Session) (pace : Pace) : ∃ delay sound,
    (s.staged pace).machine = { (s.outcome pace).machine with delay, sound } := by
  rw [staged_machine]
  cases pace.timerMode with
  | perCycle => exact ⟨_, _, rfl⟩
  | realtime => exact ⟨_, _, rfl⟩

theorem clock_screen (s : Session) (mode : TimerMode) : (s.clock mode).screen = s.screen := by
  cases mode with
  | perCycle => rfl
  | realtime => rfl

theorem staged_screen (s : Session) (pace : Pace) : (s.staged pace).screen =
    s.screen.setBeeping (s.staged pace).machine.soundActive := by
  show ((s.ran pace).clock pace.timerMode).screen.setBeeping _ = _
  rw [clock_screen]
  rfl

theorem staged_window (s : Session) (pace : Pace) :
    (s.staged pace).screen.window.script = s.screen.window.script
      ∧ (s.staged pace).screen.window.counter = s.screen.window.counter
      ∧ (s.staged pace).screen.window.events.toList
        = s.screen.window.events.toList ++ s.titles pace := by
  rw [staged_screen, titles, Screen.setBeeping]
  split
  next => simp
  next => simp [Window.setTitle, Window.record]

/-- What a turn that does not end the session makes of it, with one event for its frame. -/
structure Served (s : Session) (pace : Pace) (t : Session) (event : WindowEvent) : Prop where
  done : (s.outcome pace).result = .ok ()
  machine : t.machine = { (s.staged pace).machine with redraw := false }
  log : t.log = (s.staged pace).log
  script : t.screen.window.script = s.screen.window.script
  counter : t.screen.window.counter = s.screen.window.counter + 1
  events : t.screen.window.events.toList
    = s.screen.window.events.toList ++ s.titles pace ++ [event]
  event : (s.staged pace).machine.redraw = true ∧ event = .drawn (s.staged pace).picture
    ∨ (s.staged pace).machine.redraw = false ∧ event = .updated

theorem served_of_next (went : s.turn pace = .next t) : ∃ event, s.Served pace t event := by
  obtain ⟨script, counter, events⟩ := s.staged_window pace
  have turned := s.turned pace
  rw [went] at turned
  cases turned with
  | drawn done raised accepted =>
    rw [Window.of_draw accepted]
    refine ⟨.drawn (s.staged pace).picture, done, rfl, rfl, script, ?_, ?_, .inl ⟨raised, rfl⟩⟩
    · exact congrArg (· + 1) counter
    · rw [← events]
      exact Array.toList_push
  | updated done lowered =>
    refine ⟨.updated, done, ?_, rfl, script, ?_, ?_, .inr ⟨lowered, rfl⟩⟩
    · rw [← lowered]
    · exact congrArg (· + 1) counter
    · rw [← events]
      exact Array.toList_push

/-! ## Sessions that are ready for another turn -/

/-- The machine is not halted and has no more addresses on its stack than there are slots, and its
    timers are clocked as the session thinks they are. -/
structure Ready (s : Session) (pace : Pace) : Prop where
  awake : s.machine.state ≠ .halted
  bounded : s.machine.stack.depth ≤ CallStack.capacity
  timerMode : s.machine.timerMode = pace.timerMode

theorem Ready.next (ready : s.Ready pace) (went : s.turn pace = .next t) : t.Ready pace := by
  obtain ⟨event, served⟩ := served_of_next went
  -- but for the timers and the redraw flag, the machine is the one behind the batch
  obtain ⟨_, _, untimed⟩ := s.staged_untimed pace
  have machine := served.machine
  rw [untimed] at machine
  constructor
  · rw [machine]
    exact Machine.run_awake ready.awake served.done
  · rw [machine]
    exact (Machine.run_faultless (f := .overflow) pace.cycles ready.bounded).2
  · rw [machine]
    exact (Machine.run_timerMode ..).trans ready.timerMode

/-- The session that another turn leads to, if the session is open and the turn does not end it. -/
def another (s : Session) (pace : Pace) : Option Session :=
  if s.isOpen then
    match s.turn pace with
    | .next t => some t
    | .over .. => none
  else none

/-- The session behind a number of turns, if it gets that far.  These are the sessions that are
    asked whether they are open. -/
def afterTurns (s : Session) (pace : Pace) : Nat → Option Session
  | 0 => some s
  | k + 1 => (s.afterTurns pace k).bind fun t => t.another pace

theorem another_eq_some_iff :
    s.another pace = some t ↔ s.isOpen = true ∧ s.turn pace = .next t := by
  unfold another
  split
  next opened =>
    cases s.turn pace with
    | next u => simp [opened]
    | _ => simp
  next shut => simp [shut]

theorem afterTurns_succ_eq_some_iff : s.afterTurns pace (k + 1) = some u ↔
    ∃ t, s.afterTurns pace k = some t ∧ t.isOpen = true ∧ t.turn pace = .next u := by
  rw [afterTurns, Option.bind_eq_some_iff]
  simp only [another_eq_some_iff]

/-- The first turn is as good a turn to leave off as the last one. -/
theorem afterTurns_succ (s : Session) (pace : Pace) (k : Nat) :
    s.afterTurns pace (k + 1) = (s.another pace).bind fun t => t.afterTurns pace k := by
  -- `afterTurns` leaves off the last turn, so the first one comes to the front by associativity
  induction k with
  | zero =>
    show (some s).bind (fun t => t.another pace) = (s.another pace).bind some
    rw [Option.bind_some, Option.bind_fun_some]
  | succ k ih =>
    rw [afterTurns, ih, Option.bind_assoc]
    rfl

theorem reached_of_last (last : s.another pace = none) :
    (∃ k, s.afterTurns pace k = some t) ↔ t = s := by
  constructor
  · rintro ⟨k, reached⟩
    cases k with
    | zero => exact (Option.some.inj reached).symm
    | succ k =>
      rw [afterTurns_succ, last] at reached
      cases reached
  · rintro rfl
    exact ⟨0, rfl⟩

theorem reached_of_another (taken : s.another pace = some u) :
    (∃ k, s.afterTurns pace k = some t) ↔ t = s ∨ ∃ k, u.afterTurns pace k = some t := by
  constructor
  · rintro ⟨k, reached⟩
    cases k with
    | zero => exact .inl (Option.some.inj reached).symm
    | succ k =>
      rw [afterTurns_succ, taken] at reached
      exact .inr ⟨k, reached⟩
  · rintro (rfl | ⟨k, reached⟩)
    · exact ⟨0, rfl⟩
    · refine ⟨k + 1, ?_⟩
      rw [afterTurns_succ, taken]
      exact reached

/-- What holds at first and goes over from turn to turn holds after any number of them. -/
theorem afterTurns_preserves {P : Nat → Session → Prop} (start : P 0 s)
    (turn : ∀ {k t u}, s.afterTurns pace k = some t → t.isOpen = true → t.turn pace = .next u →
      P k t → P (k + 1) u)
    (reached : s.afterTurns pace k = some t) : P k t := by
  induction k generalizing t with
  | zero =>
    cases reached
    exact start
  | succ k ih =>
    obtain ⟨u, before, opened, went⟩ := afterTurns_succ_eq_some_iff.mp reached
    exact turn before opened went (ih before)

theorem Ready.afterTurns (ready : s.Ready pace) (reached : s.afterTurns pace k = some t) :
    t.Ready pace := by
  refine afterTurns_preserves (P := fun _ t => t.Ready pace) ready ?_ reached
  intro _ _ _ _ _ went ready
  exact ready.next went

/-- Every turn is one frame of the same script. -/
theorem window_afterTurns (reached : s.afterTurns pace k = some t) :
    t.screen.window.script = s.screen.window.script
      ∧ t.screen.window.counter = s.screen.window.counter + k := by
  refine afterTurns_preserves (P := fun k t => t.screen.window.script = s.screen.window.script
    ∧ t.screen.window.counter = s.screen.window.counter + k) ⟨rfl, rfl⟩ ?_ reached
  intro k _ _ _ _ went same
  obtain ⟨_, served⟩ := served_of_next went
  refine ⟨served.script.trans same.1, ?_⟩
  rw [served.counter, same.2, Nat.add_assoc]

theorem play_of_afterTurns (reached : s.afterTurns pace k = some t) :
    s.play pace = t.play pace := by
  refine afterTurns_preserves (P := fun _ t => s.play pace = t.play pace) rfl ?_ reached
  intro _ t u _ opened went same
  rw [same, play, dif_pos opened]
  split
  next u' went' =>
    rw [went] at went'
    cases went'
    rfl
  next went' =>
    rw [went] at went'
    cases went'

end Session

/-! ## How a session starts -/

namespace Machine

/-- A machine with a program in its memory that has not begun yet. -/
def loaded (random : RandomSource) (mode : TimerMode) (rom : List UInt8) : Machine :=
  { fresh random with
    memory := Memory.initial.store Memory.programStart.toNat rom
    timerMode := mode }

end Machine

/-- A screen on which nothing was shown. -/
def Screen.opened (script : Script) (scale : Scale) : Screen where
  window := { script, counter := 0, events := #[.opened scale quietTitle, .paced updateInterval] }
  pixels := .initial
  beeping := false

namespace Program

variable {around : Surroundings} {config : Config} {s : Session} {pace : Pace}

/-- The endings of the preparation. -/
inductive Prepared (around : Surroundings) (config : Config) : Except Report (Session × Pace) → Prop
  | unreadable {cause} (failed : around.read config.rom = .error cause) :
      Prepared around config (.error
        (.withoutWindow (.failed (.notLoaded config.rom (.unreadable config.rom cause))) []))
  | tooLarge {rom} (read : around.read config.rom = .ok rom)
      (large : Memory.maxRomSize < rom.length) :
      Prepared around config (.error (.withoutWindow
        (.failed (.notLoaded config.rom (.romTooLarge rom.length Memory.maxRomSize))) []))
  | notOpened {rom} (read : around.read config.rom = .ok rom)
      (fits : rom.length ≤ Memory.maxRomSize) (refused : around.script.failsToOpen = true) :
      Prepared around config (.error
        (.withoutWindow (.failed (.notOpened .createFailed)) [.romLoaded rom.length]))
  | faulted {rom cause} (read : around.read config.rom = .ok rom)
      (fits : rom.length ≤ Memory.maxRomSize) (opened : around.script.failsToOpen = false)
      (faulty : config.cyclesPerFrame = .error cause) :
      Prepared around config (.error
        { conclusion := .faulted cause
          events := (Screen.opened around.script config.scale).window.events.toList
          log := [.romLoaded rom.length] })
  | ready {rom cycles} (read : around.read config.rom = .ok rom)
      (fits : rom.length ≤ Memory.maxRomSize) (opened : around.script.failsToOpen = false)
      (rate : config.cyclesPerFrame = .ok cycles) :
      Prepared around config (.ok
        ({ machine := .loaded around.random config.timerMode rom
           screen := .opened around.script config.scale
           log := #[.romLoaded rom.length, .running cycles config.timerMode] },
          { cycles, timerMode := config.timerMode }))

theorem prepared (around : Surroundings) (config : Config) :
    Prepared around config (prepare around config) := by
  unfold prepare Machine.loadRomFile
  cases read : around.read config.rom with
  | error cause => exact .unreadable read
  | ok rom =>
    dsimp only
    by_cases large : Memory.maxRomSize < rom.length
    · rw [Machine.loadRom, Memory.loadRom, if_pos large]
      exact .tooLarge read large
    · have fits := Nat.le_of_not_lt large
      rw [Machine.loadRom_fits fits]
      dsimp only
      unfold Screen.create Window.create
      cases opened : around.script.failsToOpen with
      | true => exact .notOpened read fits opened
      | false =>
        cases rate : config.cyclesPerFrame with
        | error cause => exact .faulted read fits opened rate
        | ok cycles => exact .ready read fits opened rate

theorem ready_of_prepare (went : prepare around config = .ok (s, pace)) : s.Ready pace := by
  have prepared := prepared around config
  rw [went] at prepared
  cases prepared with
  | ready => exact ⟨RunState.noConfusion, Nat.zero_le _, rfl⟩

variable {α : Type} {k : Nat}

/-- Looks at the session of a program behind a number of turns, if it gets that far. -/
def after (around : Surroundings) (config : Config) (k : Nat)
    (look : Session → Pace → Option α) : Option α :=
  match prepare around config with
  | .error _ => none
  | .ok (s, pace) => (s.afterTurns pace k).bind fun t => look t pace

theorem reached_of_after {look : Session → Pace → Option α} {found : α}
    (goes : after around config k look = some found) : ∃ s pace t,
    prepare around config = .ok (s, pace) ∧ s.afterTurns pace k = some t
      ∧ look t pace = some found := by
  unfold after at goes
  split at goes
  next => cases goes
  next s pace went =>
    obtain ⟨t, reached, looked⟩ := Option.bind_eq_some_iff.mp goes
    exact ⟨s, pace, t, went, reached, looked⟩

end Program

end Chip8
