import Chip8.Proofs.Logging
import Chip8.Proofs.Turns
import Mathlib.Data.List.Basic

/-! # The course of a program

`Program.course` lists what happens from the start of the program to its end, in order: it reads the
file, opens the window, and from then on it asks whether the session is open, takes the steps of a
batch, ticks the timers if that is left to it, and serves the window.  Nothing else happens:
what the program leaves behind, events and records alike, is what the occurrences of its course
leave behind one after the other.
-/

namespace Chip8

/-- Something that happens while the program runs. -/
inductive Occurrence where
  | reading (answer : Except ReadError (List UInt8))
  | opening (answer : Except WindowError Screen)
  | starting (pace : Pace)
  /-- The session is asked whether it is open. -/
  | testing (s : Session)
  | stepping (moment : Moment)
  /-- The host ticks the timers. -/
  | ticking (machine : Machine)
  /-- Something is done to the window that cannot fail. -/
  | operating (event : WindowEvent)
  | drawing (window : Window) (picture : PixelBuffer)

/-- What the host has to say about the step that it took. -/
def Moment.farewell (moment : Moment) : List Notice :=
  match moment.result with
  | .error (.error (.pcOutOfRange _)) => [.ranOff]
  | _ => []

namespace Occurrence

/-- What is done to the window. -/
def events : Occurrence → List WindowEvent
  | .opening (.ok screen) => screen.window.events.toList
  | .operating event => [event]
  | .drawing window picture =>
    match window.draw picture with
    | .error _ => []
    | .ok _ => [.drawn picture]
  | _ => []

def notices : Occurrence → List Notice
  | .reading (.ok rom) => if Memory.maxRomSize < rom.length then [] else [.romLoaded rom.length]
  | .starting pace => [.running pace.cycles pace.timerMode]
  | .stepping moment => moment.notices ++ moment.farewell
  | .ticking machine => machine.tickTimers.2
  | _ => []

def isTest : Occurrence → Bool
  | .testing _ => true
  | _ => false

end Occurrence

/-- The session that a turn leads to, or ends with. -/
def Turn.session : Turn → Session
  | .next s => s
  | .over s _ => s

namespace Session

variable {s t : Session} {pace : Pace} {happened : List Occurrence}
  {final : Session × Ending}

/-! ## The course of a session -/

/-- What a turn ends with. -/
def presenting (s : Session) (pace : Pace) : Occurrence :=
  if (s.staged pace).machine.redraw then
    .drawing (s.staged pace).screen.window (s.staged pace).picture
  else .operating .updated

/-- The tick of a turn, if ticking is left to the host. -/
def ticking (s : Session) (pace : Pace) : List Occurrence :=
  match pace.timerMode with
  | .perCycle => []
  | .realtime => [.ticking (s.outcome pace).machine]

/-- What a turn does behind its batch. -/
def hosting (s : Session) (pace : Pace) : List Occurrence :=
  s.ticking pace ++ (s.titles pace).map .operating ++ [s.presenting pace]

/-- What a turn does. -/
def turnCourse (s : Session) (pace : Pace) : List Occurrence :=
  (s.batch pace).map .stepping ++
    match (s.outcome pace).result with
    | .error _ => []
    | .ok () => s.hosting pace

/-- What a session does until it ends. -/
def course (s : Session) (pace : Pace) : List Occurrence :=
  .testing s ::
    if _opened : s.isOpen = true then
      s.turnCourse pace ++
        match _went : s.turn pace with
        | .next t => t.course pace
        | .over .. => []
    else []
termination_by s.screen.window.framesLeft
decreasing_by
  rw [framesLeft_turn _went]
  have := framesLeft_pos _opened
  omega

/-- The sessions that are played to their end, with their course. -/
inductive Played (pace : Pace) : Session → List Occurrence → Session × Ending → Prop
  | closed {s : Session} (shut : s.isOpen = false) : Played pace s [.testing s] (s, .closed)
  | ended {s t : Session} {ending} (opened : s.isOpen = true)
      (went : s.turn pace = .over t ending) :
      Played pace s (.testing s :: s.turnCourse pace) (t, ending)
  | next {s t : Session} {later final} (opened : s.isOpen = true) (went : s.turn pace = .next t)
      (rest : Played pace t later final) :
      Played pace s (.testing s :: (s.turnCourse pace ++ later)) final

theorem played (s : Session) (pace : Pace) : Played pace s (s.course pace) (s.play pace) := by
  fun_induction s.play pace with
  | case1 s opened t went later =>
    have along : s.course pace = .testing s :: (s.turnCourse pace ++ t.course pace) := by
      rw [course, dif_pos opened]
      split
      next went' => rw [Turn.next.inj (went.symm.trans went')]
      next went' => cases went.symm.trans went'
    rw [along]
    exact .next opened went later
  | case2 s opened t ending went =>
    have along : s.course pace = .testing s :: s.turnCourse pace := by
      rw [course, dif_pos opened]
      split
      next went' => cases went.symm.trans went'
      next => rw [List.append_nil]
    rw [along]
    exact .ended opened went
  | case3 s shut =>
    rw [course, dif_neg shut]
    exact .closed (eq_false_of_ne_true shut)

/-! ## What a turn leaves behind -/

theorem presenting_raised (raised : (s.staged pace).machine.redraw = true) :
    s.presenting pace = .drawing (s.staged pace).screen.window (s.staged pace).picture :=
  if_pos raised

theorem presenting_lowered (lowered : (s.staged pace).machine.redraw = false) :
    s.presenting pace = .operating .updated :=
  if_neg (ne_true_of_eq_false lowered)

theorem events_hosting (s : Session) (pace : Pace) :
    (s.hosting pace).flatMap Occurrence.events
      = s.titles pace ++ (s.presenting pace).events := by
  rw [hosting, ticking, List.flatMap_append, List.flatMap_append, List.flatMap_map]
  cases pace.timerMode with
  | perCycle | realtime => simp [Occurrence.events]

theorem events_stepping (moments : List Moment) :
    (moments.map Occurrence.stepping).flatMap Occurrence.events = [] := by
  rw [List.flatMap_map, List.flatMap_eq_nil_iff]
  intro _ _
  rfl

theorem turn_events (s : Session) (pace : Pace) :
    (s.turn pace).session.screen.window.events.toList =
      s.screen.window.events.toList ++ (s.turnCourse pace).flatMap Occurrence.events := by
  obtain ⟨_, _, events⟩ := s.staged_window pace
  rw [turnCourse, List.flatMap_append, events_stepping, List.nil_append]
  have turned := s.turned pace
  generalize s.turn pace = turn at turned ⊢
  cases turned with
  | ranOff failed | crashed failed | faulted failed =>
    rw [failed]
    exact (List.append_nil _).symm
  | notShown done raised refused =>
    rw [done]
    dsimp only
    -- a window that refuses to draw notes nothing down
    rw [events_hosting, presenting_raised raised, Occurrence.events, refused]
    rw [List.append_nil]
    exact events
  | drawn done raised accepted =>
    rw [done, Window.of_draw accepted]
    dsimp only
    rw [events_hosting, presenting_raised raised, Occurrence.events, accepted, ← List.append_assoc,
      ← events]
    exact Array.toList_push
  | updated done lowered =>
    rw [done]
    dsimp only
    rw [events_hosting, presenting_lowered lowered, Occurrence.events, ← List.append_assoc,
      ← events]
    exact Array.toList_push

theorem notices_presenting (s : Session) (pace : Pace) : (s.presenting pace).notices = [] := by
  unfold presenting
  split <;> rfl

theorem notices_hosting (s : Session) (pace : Pace) :
    (s.hosting pace).flatMap Occurrence.notices =
      match pace.timerMode with
      | .perCycle => []
      | .realtime => (s.outcome pace).machine.tickTimers.2 := by
  have quiet : ((s.titles pace).map Occurrence.operating).flatMap Occurrence.notices = [] := by
    rw [List.flatMap_map, List.flatMap_eq_nil_iff]
    intro _ _
    rfl
  rw [hosting, ticking, List.flatMap_append, List.flatMap_append, quiet, List.flatMap_singleton,
    notices_presenting, List.append_nil, List.append_nil]
  cases pace.timerMode with
  | perCycle => rfl
  | realtime => exact List.flatMap_singleton ..

theorem notices_steps {moments : List Moment}
    (done : ∀ moment ∈ moments, ∃ s, moment.result = .ok s) :
    (moments.map Occurrence.stepping).flatMap Occurrence.notices
      = moments.flatMap Moment.notices := by
  rw [List.flatMap_map]
  apply List.flatMap_congr
  intro moment member
  obtain ⟨s, answered⟩ := done moment member
  rw [Occurrence.notices, Moment.farewell, answered, List.append_nil]

theorem notices_batch_of_ok (awake : s.machine.state ≠ .halted)
    (done : (s.outcome pace).result = .ok ()) :
    ((s.batch pace).map Occurrence.stepping).flatMap Occurrence.notices = (s.outcome pace).log := by
  rw [outcome, Machine.run_notices awake]
  exact notices_steps (Machine.answered_of_run_ok done)

theorem notices_batch_of_error {cause : Stop} (awake : s.machine.state ≠ .halted)
    (stopped : (s.outcome pace).result = .error cause) : ∃ last : Moment,
    last.result = .error cause
      ∧ ((s.batch pace).map Occurrence.stepping).flatMap Occurrence.notices
        = (s.outcome pace).log ++ last.farewell := by
  obtain ⟨before, last, moments, done, failed⟩ := Machine.answered_of_run_error stopped
  refine ⟨last, failed, ?_⟩
  rw [outcome, Machine.run_notices awake, batch, moments, List.map_append, List.flatMap_append,
    List.flatMap_append, notices_steps done, List.append_assoc]
  simp [Occurrence.notices]

theorem staged_log (s : Session) (pace : Pace) : (s.staged pace).log.toList =
    s.log.toList ++ ((s.outcome pace).log ++ (s.hosting pace).flatMap Occurrence.notices) := by
  show ((s.ran pace).clock pace.timerMode).log.toList = _
  rw [notices_hosting]
  cases pace.timerMode with
  | perCycle | realtime => simp [clock, ran]

theorem turn_notices (awake : s.machine.state ≠ .halted) (pace : Pace) :
    (s.turn pace).session.log.toList =
      s.log.toList ++ (s.turnCourse pace).flatMap Occurrence.notices := by
  rw [turnCourse, List.flatMap_append]
  have turned := s.turned pace
  generalize s.turn pace = turn at turned ⊢
  cases turned with
  | ranOff failed =>
    obtain ⟨last, result, notices⟩ := notices_batch_of_error awake failed
    rw [notices, failed, Moment.farewell, result]
    simp [Turn.session, ran]
  | @crashed cause failed crash =>
    obtain ⟨last, result, notices⟩ := notices_batch_of_error awake failed
    rw [notices, failed, Moment.farewell, result]
    cases cause with
    | pcOutOfRange => exact False.elim crash
    | stackOverflow | stackUnderflow | memoryOutOfBounds => simp [Turn.session, ran]
  | faulted failed =>
    obtain ⟨last, result, notices⟩ := notices_batch_of_error awake failed
    rw [notices, failed, Moment.farewell, result]
    simp [Turn.session, ran]
  | notShown done | drawn done | updated done =>
    rw [done, notices_batch_of_ok awake done]
    exact s.staged_log pace

/-! ## What a session leaves behind -/

theorem Played.events (played : Played pace s happened final) :
    final.1.screen.window.events.toList
      = s.screen.window.events.toList ++ happened.flatMap Occurrence.events := by
  induction played with
  | closed => exact (List.append_nil _).symm
  | @ended s _ _ _ went =>
    have turn := s.turn_events pace
    rw [went] at turn
    exact turn
  | @next s _ _ _ _ went _ ih =>
    have turn := s.turn_events pace
    rw [went, Turn.session] at turn
    rw [ih, turn, List.append_assoc, ← List.flatMap_append]
    rfl

theorem Played.notices (played : Played pace s happened final) (ready : s.Ready pace) :
    final.1.log.toList = s.log.toList ++ happened.flatMap Occurrence.notices := by
  induction played with
  | closed => exact (List.append_nil _).symm
  | ended _ went =>
    have turn := turn_notices ready.awake pace
    rw [went] at turn
    exact turn
  | next _ went _ ih =>
    have turn := turn_notices ready.awake pace
    rw [went, Turn.session] at turn
    rw [ih (ready.next went), turn, List.append_assoc, ← List.flatMap_append]
    rfl

end Session

namespace Program

/-- What happens while the program runs, from reading the file to the last turn. -/
def course (around : Surroundings) (config : Config) : List Occurrence :=
  .reading (around.read config.rom) ::
    match around.read config.rom with
    | .error _ => []
    | .ok rom =>
      if Memory.maxRomSize < rom.length then []
      else
        .opening (Screen.create around.script config.scale) ::
          match prepare around config with
          | .error _ => []
          | .ok (s, pace) => .starting pace :: s.course pace

/-- The courses of a program that is told a rate of instructions that it can round, with what it
    leaves behind. -/
inductive Ran (around : Surroundings) (config : Config) : List Occurrence → Report → Prop
  | unreadable {cause} :
      Ran around config [.reading (.error cause)] (.withoutWindow
        (.failed (.notLoaded config.rom (.unreadable config.rom cause))) [])
  | tooLarge {rom} (large : Memory.maxRomSize < rom.length) :
      Ran around config [.reading (.ok rom)] (.withoutWindow
        (.failed (.notLoaded config.rom (.romTooLarge rom.length Memory.maxRomSize))) [])
  | notOpened {rom} (fits : rom.length ≤ Memory.maxRomSize) :
      Ran around config [.reading (.ok rom), .opening (.error .createFailed)]
        (.withoutWindow (.failed (.notOpened .createFailed)) [.romLoaded rom.length])
  | played {rom s pace} (fits : rom.length ≤ Memory.maxRomSize)
      (prepared : prepare around config = .ok (s, pace))
      (screen : s.screen = .opened around.script config.scale)
      (log : s.log = #[.romLoaded rom.length, .running pace.cycles pace.timerMode]) :
      Ran around config
        (.reading (.ok rom) :: .opening (.ok s.screen) :: .starting pace :: s.course pace)
        (reportOf (s.play pace))

theorem ran (around : Surroundings) {config : Config}
    (rate : config.cyclesPerSecond.toNat ≤ 4294967265) :
    Ran around config (course around config) (runWith around config) := by
  have prepared := prepared around config
  rw [runWith, course]
  generalize went : prepare around config = preparation at prepared ⊢
  cases prepared with
  | unreadable failed =>
    rw [failed]
    exact .unreadable
  | tooLarge read large =>
    rw [read]
    dsimp only
    rw [if_pos large]
    exact .tooLarge large
  | notOpened read fits refused =>
    rw [read]
    dsimp only
    rw [if_neg (Nat.not_lt_of_le fits), Screen.create, Window.create, refused]
    exact .notOpened fits
  | faulted _ _ _ faulty =>
    have inside : config.cyclesPerSecond.toNat + Config.frameRate / 2 < UInt32.size := by
      rw [Config.frameRate, UInt32.size]
      omega
    rw [Config.cyclesPerFrame, if_pos inside] at faulty
    cases faulty
  | ready read fits opened =>
    rw [read]
    dsimp only
    rw [if_neg (Nat.not_lt_of_le fits), Screen.create, Window.create, opened]
    exact .played fits went rfl rfl

theorem Ran.events {around : Surroundings} {config : Config} {happened : List Occurrence}
    {report : Report} (ran : Ran around config happened report) :
    report.events = happened.flatMap Occurrence.events := by
  cases ran with
  | unreadable | tooLarge | notOpened => rfl
  | played => exact (Session.played _ _).events

theorem Ran.log {around : Surroundings} {config : Config} {happened : List Occurrence}
    {report : Report} (ran : Ran around config happened report) :
    report.log = happened.flatMap Occurrence.notices := by
  cases ran with
  | unreadable => rfl
  | tooLarge large =>
    show [] = (if _ then [] else _) ++ []
    rw [if_pos large]
    rfl
  | notOpened fits =>
    show [_] = (if _ then [] else _) ++ []
    rw [if_neg (Nat.not_lt_of_le fits)]
    rfl
  | played fits prepared screen log =>
    have notices := (Session.played _ _).notices (ready_of_prepare prepared)
    rw [log] at notices
    refine notices.trans ?_
    show _ = (if _ then [] else _) ++ _
    rw [if_neg (Nat.not_lt_of_le fits)]
    rfl

end Program

end Chip8
