import Chip8.Proofs.Course

/-! # How a program comes to its end

A program on a command line that it accepts fails or it does not: nothing faults, and the first
occurrence at which anything goes wrong, or at which the session closes, is the last one of its
course (`Decided`).  Its machine is never found halted, because a step that halts it ends the course
at once.
-/

namespace Chip8

namespace Occurrence

/-- Whether the program fails here. -/
def Fails : Occurrence → Prop
  | .reading (.error _) => True
  | .reading (.ok rom) => 3584 < rom.length
  | .opening answer => ∃ cause, answer = .error cause
  | .stepping moment => ∃ cause, moment.result = .error (.error cause) ∧ cause.Crash
  | .drawing window picture => ∃ cause, window.draw picture = .error cause
  | .starting _ | .testing _ | .ticking _ | .operating _ => False

/-- Whether the session ends here without a failure: the window has no frames left or is asked to
    close, or the program runs off the end of memory. -/
def Closes : Occurrence → Prop
  | .testing s =>
    s.screen.window.script.frames ≤ s.screen.window.counter
      ∨ Screen.escape ∈ s.screen.window.script.heldAt s.screen.window.counter
  | .stepping moment => ∃ pc, moment.result = .error (.error (.pcOutOfRange pc))
  | _ => False

/-- Whether the program goes on from here. -/
def Passes (o : Occurrence) : Prop :=
  ¬ o.Fails ∧ ¬ o.Closes

/-- Whether the program comes to a conclusion here. -/
def Decides (o : Occurrence) (conclusion : Conclusion) : Prop :=
  o.Fails ∧ conclusion.exitStatus = 1 ∨ o.Closes ∧ conclusion.exitStatus = 0

variable {o : Occurrence} {moment : Moment} {s : Session}

theorem not_closes_of_fails (fails : o.Fails) : ¬ o.Closes := by
  intro closes
  cases o with
  | stepping moment =>
    obtain ⟨cause, crashed, crash⟩ := fails
    obtain ⟨pc, ranOff⟩ := closes
    rw [crashed] at ranOff
    cases ranOff
    exact crash
  | testing => exact fails
  | _ => exact closes

theorem passes_of_answered (answered : ∃ s, moment.result = .ok s) :
    (Occurrence.stepping moment).Passes := by
  obtain ⟨s, answered⟩ := answered
  constructor
  · rintro ⟨cause, failed, _⟩
    cases answered.symm.trans failed
  · rintro ⟨pc, failed⟩
    cases answered.symm.trans failed

theorem testing_closes_iff : (Occurrence.testing s).Closes ↔ s.screen.isOpen = false := by
  simp only [Closes, Screen.isOpen, Window.isOpen, Window.isHeld, Bool.and_eq_false_iff,
    decide_eq_false_iff_not, Nat.not_lt, Bool.not_eq_false', List.contains_iff_mem]

/-- That the machine was found halted is not said anywhere. -/
theorem notices_silent (o : Occurrence) : .machineHalted ∉ o.notices := by
  cases o with
  | reading answer =>
    cases answer with
    | error => exact List.not_mem_nil
    | ok rom =>
      simp only [notices]
      split <;> simp
  | stepping moment =>
    have step := Machine.step_log moment.machine moment.keys
    have farewell : .machineHalted ∉ moment.farewell := by
      unfold Moment.farewell
      split <;> simp
    intro member
    rcases List.mem_append.mp member with member | member
    · exact step member
    · exact farewell member
  | ticking machine => exact machine.tickTimers_log
  | starting => simp [notices]
  | opening | testing | operating | drawing => exact List.not_mem_nil

end Occurrence

/-- A course with one occurrence at which the program comes to its conclusion, and that is the last
    one. -/
def Decided (happened : List Occurrence) (conclusion : Conclusion) : Prop :=
  ∃ before last, happened = before ++ [last] ∧ (∀ o ∈ before, o.Passes) ∧ last.Decides conclusion

namespace Decided

variable {earlier happened : List Occurrence} {o : Occurrence} {conclusion : Conclusion}

theorem single (decides : o.Decides conclusion) : Decided [o] conclusion :=
  ⟨[], o, rfl, fun _ member => absurd member List.not_mem_nil, decides⟩

theorem behind (passes : ∀ o ∈ earlier, o.Passes) (decided : Decided happened conclusion) :
    Decided (earlier ++ happened) conclusion := by
  obtain ⟨before, last, rfl, passes', decides⟩ := decided
  refine ⟨earlier ++ before, last, (List.append_assoc ..).symm, ?_, decides⟩
  intro o member
  rcases List.mem_append.mp member with member | member
  · exact passes o member
  · exact passes' o member

theorem cons (passes : o.Passes) (decided : Decided happened conclusion) :
    Decided (o :: happened) conclusion :=
  decided.behind fun _ member => List.mem_singleton.mp member ▸ passes

theorem exists_iff_last {P : Occurrence → Prop} {before : List Occurrence} {last : Occurrence}
    (none : ∀ o ∈ before, ¬ P o) : (∃ o ∈ before ++ [last], P o) ↔ P last := by
  constructor
  · rintro ⟨o, member, holds⟩
    rcases List.mem_append.mp member with member | member
    · exact absurd holds (none o member)
    · exact List.mem_singleton.mp member ▸ holds
  · intro holds
    exact ⟨last, List.mem_append_right _ (List.mem_singleton_self _), holds⟩

theorem exitStatus_eq_one_iff (decided : Decided happened conclusion) :
    conclusion.exitStatus = 1 ↔ ∃ o ∈ happened, o.Fails := by
  obtain ⟨before, last, rfl, passes, decides⟩ := decided
  rw [exists_iff_last fun o member => (passes o member).1]
  rcases decides with ⟨fails, status⟩ | ⟨closes, status⟩
  · exact iff_of_true status fails
  · exact iff_of_false (by simp [status]) fun fails => Occurrence.not_closes_of_fails fails closes

theorem exitStatus_eq_zero_iff (decided : Decided happened conclusion) :
    conclusion.exitStatus = 0 ↔ ∃ o ∈ happened, o.Closes := by
  obtain ⟨before, last, rfl, passes, decides⟩ := decided
  rw [exists_iff_last fun o member => (passes o member).2]
  rcases decides with ⟨fails, status⟩ | ⟨closes, status⟩
  · exact iff_of_false (by simp [status]) (Occurrence.not_closes_of_fails fails)
  · exact iff_of_true status closes

end Decided

namespace Session

variable {s t : Session} {pace : Pace} {ending : Ending} {happened : List Occurrence}
  {final : Session × Ending}

/-! ## Turns -/

theorem turnCourse_of_ok (done : (s.outcome pace).result = .ok ()) : ∃ before,
    s.turnCourse pace = before ++ [s.presenting pace] ∧ ∀ o ∈ before, o.Passes := by
  refine ⟨(s.batch pace).map .stepping
    ++ (s.ticking pace ++ (s.titles pace).map .operating), ?_, ?_⟩
  · rw [turnCourse, done]
    exact (List.append_assoc ..).symm
  · intro o member
    rcases List.mem_append.mp member with member | member
    · obtain ⟨moment, taken, rfl⟩ := List.mem_map.mp member
      exact Occurrence.passes_of_answered (Machine.answered_of_run_ok done moment taken)
    rcases List.mem_append.mp member with member | member
    · unfold ticking at member
      split at member
      next => cases member
      next =>
        rw [List.mem_singleton.mp member]
        exact ⟨id, id⟩
    · obtain ⟨event, _, rfl⟩ := List.mem_map.mp member
      exact ⟨id, id⟩

theorem turnCourse_of_error {cause : Stop} (stopped : (s.outcome pace).result = .error cause) :
    ∃ before last, s.turnCourse pace = before ++ [.stepping last] ∧ (∀ o ∈ before, o.Passes)
      ∧ last.result = .error cause := by
  obtain ⟨before, last, moments, done, failed⟩ := Machine.answered_of_run_error stopped
  refine ⟨before.map .stepping, last, ?_, ?_, failed⟩
  · rw [turnCourse, stopped, batch, moments, List.map_append, List.append_nil]
    rfl
  · intro o member
    obtain ⟨moment, taken, rfl⟩ := List.mem_map.mp member
    exact Occurrence.passes_of_answered (done moment taken)

theorem turnCourse_passes (went : s.turn pace = .next t) : ∀ o ∈ s.turnCourse pace, o.Passes := by
  have last : (s.outcome pace).result = .ok () ∧ (s.presenting pace).Passes := by
    have turned := s.turned pace
    rw [went] at turned
    cases turned with
    | drawn done raised accepted =>
      rw [presenting_raised raised]
      refine ⟨done, ?_, id⟩
      rintro ⟨cause, refused⟩
      cases accepted.symm.trans refused
    | updated done lowered =>
      rw [presenting_lowered lowered]
      exact ⟨done, id, id⟩
  obtain ⟨done, passes⟩ := last
  obtain ⟨before, course, passes'⟩ := turnCourse_of_ok done
  rw [course]
  intro o member
  rcases List.mem_append.mp member with member | member
  · exact passes' o member
  · exact List.mem_singleton.mp member ▸ passes

theorem turnCourse_decided (ready : s.Ready pace) (went : s.turn pace = .over t ending) :
    Decided (s.turnCourse pace) (.ofEnding ending) := by
  have turned := s.turned pace
  rw [went] at turned
  cases turned with
  | ranOff failed =>
    obtain ⟨before, last, course, passes, result⟩ := turnCourse_of_error failed
    exact ⟨before, _, course, passes, .inr ⟨⟨_, result⟩, rfl⟩⟩
  | crashed failed crash =>
    obtain ⟨before, last, course, passes, result⟩ := turnCourse_of_error failed
    exact ⟨before, _, course, passes, .inl ⟨⟨_, result, crash⟩, rfl⟩⟩
  -- the stack of a machine that is ready has room for all that is on it
  | faulted faulty => exact absurd faulty (Machine.run_faultless pace.cycles ready.bounded).1
  | notShown done raised refused =>
    obtain ⟨before, course, passes⟩ := turnCourse_of_ok done
    rw [presenting_raised raised] at course
    exact ⟨before, _, course, passes, .inl ⟨⟨_, refused⟩, rfl⟩⟩

/-! ## Sessions -/

theorem Ready.isRunning (ready : s.Ready pace) : s.machine.isRunning = true :=
  decide_eq_true ready.awake

theorem Ready.isOpen_eq (ready : s.Ready pace) : s.isOpen = s.screen.isOpen := by
  rw [isOpen, ready.isRunning, Bool.and_true]

theorem Ready.testing_passes (ready : s.Ready pace) (opened : s.isOpen = true) :
    (Occurrence.testing s).Passes := by
  refine ⟨id, ?_⟩
  rw [Occurrence.testing_closes_iff, ← ready.isOpen_eq, opened]
  exact Bool.noConfusion

theorem Played.decided (played : Played pace s happened final) (ready : s.Ready pace) :
    Decided happened (.ofEnding final.2) := by
  induction played with
  | closed shut =>
    rw [ready.isOpen_eq] at shut
    exact .single (.inr ⟨Occurrence.testing_closes_iff.mpr shut, rfl⟩)
  | ended opened went =>
    exact (turnCourse_decided ready went).cons (ready.testing_passes opened)
  | next opened went _ ih =>
    exact ((ih (ready.next went)).behind (turnCourse_passes went)).cons
      (ready.testing_passes opened)

/-! ## Tests -/

theorem turnCourse_untested (s : Session) (pace : Pace) :
    ∀ o ∈ s.turnCourse pace, o.isTest = false := by
  have hosting : ∀ o ∈ s.hosting pace, o.isTest = false := by
    simp only [Session.hosting, ticking, presenting, List.mem_append, List.mem_map,
      List.mem_singleton]
    rintro o ((member | ⟨_, _, rfl⟩) | rfl)
    · split at member
      next => cases member
      next =>
        rw [List.mem_singleton.mp member]
        rfl
    · rfl
    · split <;> rfl
  intro o member
  rcases List.mem_append.mp member with member | member
  · obtain ⟨_, _, rfl⟩ := List.mem_map.mp member
    rfl
  · split at member
    next => cases member
    next => exact hosting o member

/-- The sessions that are tested are those behind the turns that are taken. -/
theorem Played.tested_iff (played : Played pace s happened final) :
    .testing t ∈ happened ↔ ∃ k, s.afterTurns pace k = some t := by
  have untested : ∀ s : Session, .testing t ∉ s.turnCourse pace := by
    intro s turning
    cases s.turnCourse_untested pace _ turning
  induction played with
  | closed shut =>
    rw [List.mem_singleton, Occurrence.testing.injEq, reached_of_last]
    rw [another, if_neg (ne_true_of_eq_false shut)]
  | ended opened went =>
    rw [List.mem_cons, Occurrence.testing.injEq, or_iff_left (untested _), reached_of_last]
    rw [another, if_pos opened, went]
  | next opened went _ ih =>
    rw [List.mem_cons, List.mem_append, Occurrence.testing.injEq, or_iff_right (untested _),
      reached_of_another (another_eq_some_iff.mpr ⟨opened, went⟩)]
    exact or_congr_right ih

theorem Played.isRunning_of_test (played : Played pace s happened final) (ready : s.Ready pace)
    (tested : .testing t ∈ happened) : t.machine.isRunning = true := by
  obtain ⟨_, reached⟩ := played.tested_iff.mp tested
  exact (ready.afterTurns reached).isRunning

/-- Every turn but the last uses up a frame, so a session comes to its end. -/
theorem Played.countP_isTest (played : Played pace s happened final) :
    happened.countP (·.isTest) ≤ s.screen.window.framesLeft + 1 := by
  have turning : ∀ s : Session, (s.turnCourse pace).countP (·.isTest) = 0 := by
    intro s
    rw [List.countP_eq_zero]
    intro o member
    exact ne_true_of_eq_false (s.turnCourse_untested pace o member)
  induction played with
  | closed => exact Nat.le_add_left ..
  | @ended s _ _ _ _ =>
    rw [List.countP_cons, turning]
    exact Nat.le_add_left ..
  | @next s _ _ _ opened went _ ih =>
    have used := framesLeft_turn went
    have left := framesLeft_pos opened
    rw [List.countP_cons, List.countP_append, turning, Occurrence.isTest, if_pos rfl]
    omega

end Session

namespace Program

variable {around : Surroundings} {config : Config} {happened : List Occurrence} {report : Report}

theorem Ran.decided (ran : Ran around config happened report) :
    Decided happened report.conclusion := by
  have read : ∀ {rom : List UInt8}, rom.length ≤ Memory.maxRomSize →
      (Occurrence.reading (.ok rom)).Passes := fun fits => ⟨Nat.not_lt_of_le fits, id⟩
  cases ran with
  | unreadable => exact .single (.inl ⟨trivial, rfl⟩)
  | tooLarge large => exact .single (.inl ⟨large, rfl⟩)
  | notOpened fits =>
    have refused : (Occurrence.opening (.error .createFailed)).Fails := ⟨_, rfl⟩
    exact (Decided.single (.inl ⟨refused, rfl⟩)).cons (read fits)
  | @played _ s pace fits prepared =>
    have opened : (Occurrence.opening (.ok s.screen)).Passes := by
      refine ⟨?_, id⟩
      rintro ⟨cause, refused⟩
      cases refused
    have played := (Session.played s pace).decided (ready_of_prepare prepared)
    exact ((played.cons ⟨id, id⟩).cons opened).cons (read fits)

/-- The sessions that a program tests are those behind the turns that are taken. -/
theorem tested_iff {t : Session} : .testing t ∈ course around config ↔
    ∃ s pace k, prepare around config = .ok (s, pace) ∧ s.afterTurns pace k = some t := by
  have prepared := prepared around config
  unfold course
  generalize prepare around config = preparation at prepared ⊢
  cases prepared with
  | unreadable failed => simp [failed]
  | tooLarge read large => simp [read, large]
  | notOpened read fits | faulted read fits => simp [read, Nat.not_lt_of_le fits]
  | ready read fits =>
    simp [read, Nat.not_lt_of_le fits, (Session.played _ _).tested_iff]

theorem Ran.isRunning_of_test {s : Session} (ran : Ran around config happened report)
    (tested : .testing s ∈ happened) : s.machine.isRunning = true := by
  cases ran with
  | unreadable | tooLarge | notOpened => simp at tested
  | @played _ t pace _ prepared =>
    have turning : .testing s ∈ t.course pace := by simpa using tested
    exact (Session.played t pace).isRunning_of_test (ready_of_prepare prepared) turning

theorem Ran.countP_isTest (ran : Ran around config happened report) :
    happened.countP (·.isTest) ≤ around.script.frames + 1 := by
  cases ran with
  | unreadable | tooLarge | notOpened => simp [Occurrence.isTest]
  | @played _ s pace _ _ screen =>
    have counted := (Session.played s pace).countP_isTest
    have left : s.screen.window.framesLeft = around.script.frames := by
      rw [screen]
      rfl
    rw [left] at counted
    simpa [Occurrence.isTest] using counted

/-- On a command line that the program accepts, with a rate that it can round, it comes to its end
    and fails exactly if the file cannot be read or is too long, the window cannot be opened, a step
    runs into a fatal condition other than running off the end of memory, or a picture cannot be
    shown.  Otherwise it succeeds, because a session without frames or with Escape held was found
    closed or the program ran off the end of memory.  Of all these the first one is the last thing
    that happens; nothing else is done to the window, nothing else is said, and no test finds the
    machine halted. -/
theorem exit_status_decided (around : Surroundings) {argv : List String} {config : Config}
    (accepted : CommandLine.parse argv = .ok config)
    (rate : config.cyclesPerSecond.toNat ≤ 4294967265) :
    (∃ before last, course around config = before ++ [last]
        ∧ (∀ o ∈ before, ¬ o.Fails ∧ ¬ o.Closes) ∧ (last.Fails ∨ last.Closes))
      ∧ ((run around argv).conclusion.exitStatus = 1 ↔ ∃ o ∈ course around config, o.Fails)
      ∧ ((run around argv).conclusion.exitStatus = 0 ↔ ∃ o ∈ course around config, o.Closes)
      ∧ (run around argv).events = (course around config).flatMap Occurrence.events
      ∧ (run around argv).log = (course around config).flatMap Occurrence.notices
      ∧ .machineHalted ∉ (run around argv).log
      ∧ (∀ s, .testing s ∈ course around config → s.machine.isRunning = true)
      ∧ (course around config).countP (·.isTest) ≤ around.script.frames + 1 := by
  have ran := ran around rate
  have same : run around argv = runWith around config := by rw [run, accepted]
  have log := ran.log
  have decided := ran.decided
  rw [same]
  refine ⟨?_, decided.exitStatus_eq_one_iff, decided.exitStatus_eq_zero_iff, ran.events, log, ?_,
    fun s tested => ran.isRunning_of_test tested, ran.countP_isTest⟩
  · obtain ⟨before, last, happened, passes, decides⟩ := decided
    exact ⟨before, last, happened, passes, decides.imp And.left And.left⟩
  · rw [log, List.mem_flatMap]
    rintro ⟨o, _, said⟩
    exact o.notices_silent said

/-- A program that returns from nowhere, in front of a window that is open for two frames. -/
def returning : Surroundings where
  read _ := .ok [0x00, 0xEE]
  script := { Script.empty with frames := 2 }
  random := .arithmetic 0 0

/-- What a command line that names only this program says. -/
def unhurried : Config where
  rom := "return.ch8"
  cyclesPerSecond := 60
  timerMode := .perCycle
  scale := .x8

theorem exit_status_returning :
    CommandLine.parse ["chip8", "return.ch8"] = .ok unhurried
      ∧ (run returning ["chip8", "return.ch8"]).conclusion.exitStatus = 1
      ∧ .machineHalted ∉ (run returning ["chip8", "return.ch8"]).log := by
  have accepted : CommandLine.parse ["chip8", "return.ch8"] = .ok unhurried := by decide +kernel
  obtain ⟨_, fails, _, _, _, silent, _⟩ := exit_status_decided returning accepted (by decide)
  refine ⟨accepted, fails.mpr ?_, silent⟩
  have goes : after returning unhurried 0 (fun s pace =>
      some (s.isOpen, pace.cycles, (s.machine.step s.screen.keys).result))
        = some (true, 1, .error (.error (.stackUnderflow 0x200))) := by
    decide +kernel
  obtain ⟨s, pace, _, went, reached, looked⟩ := reached_of_after goes
  cases reached
  simp only [Option.some.injEq, Prod.mk.injEq] at looked
  obtain ⟨opened, cycles, underflow⟩ := looked
  have happened : course returning unhurried = .reading (.ok [0x00, 0xEE])
      :: .opening (Screen.create returning.script .x8) :: .starting pace :: s.course pace := by
    rw [course, went]
    rfl
  refine ⟨.stepping ⟨s.machine, s.screen.keys⟩, ?_, _, underflow, trivial⟩
  rw [happened, Session.course, dif_pos opened, Session.turnCourse, Session.batch, cycles]
  simp [Machine.runMoments]

end Program

end Chip8
