import Chip8.Proofs.Halting
import Chip8.Proofs.History

/-! # Who ticks the timers

The two timer modes agree up to who ticks: a step that clocks the timers is a step that leaves them
to the host, followed by a tick of the host's.  No instruction looks at the mode, and a step ticks
last, after whatever its instruction read from a timer or wrote to it.

The non-trivial ingredient is `step_modes`: up to the tick at its end, a step of one mode is the
same as a step of the other, and a step that fails does not come to its end.
-/

namespace Chip8

/-- A timer at the end of a cycle. -/
def Timer.cycled (t : Timer) : TimerMode → Timer
  | .perCycle => t.tick
  | .realtime => t

theorem Timer.count_tick (t : Timer) : t.tick.count.toNat = t.count.toNat - 1 := by
  unfold tick
  split
  next stopped => simp [stopped]
  next running =>
    have positive : t.count.toNat ≠ 0 := fun zero => running (UInt8.toNat_inj.mp zero)
    have bound : t.count.toNat < 256 := t.count.toNat_lt
    have one : (1 : UInt8).toNat = 1 := rfl
    rw [UInt8.toNat_sub, one]
    omega

/-- One of the two timers of a machine. -/
inductive Clock where
  | delay
  | sound

namespace Clock

def timer : Clock → Machine → Timer
  | .delay, m => m.delay
  | .sound, m => m.sound

/-- The instruction that sets the timer from a register. -/
def setter : Clock → UInt8 → Instruction
  | .delay => .setDelay
  | .sound => .setSound

/-- The timer of `m'` is what is left of the one of `m` after a number of cycles that did not set
    it. -/
structure Counted (clock : Clock) (m : Machine) (cycles : Nat) (m' : Machine) : Prop where
  perCycle : m.timerMode = .perCycle →
    (clock.timer m').count.toNat = (clock.timer m).count.toNat - cycles
  realtime : m.timerMode = .realtime → clock.timer m' = clock.timer m

theorem Counted.of_cycled {clock : Clock} {m m' : Machine}
    (ended : clock.timer m' = (clock.timer m).cycled m.timerMode) : clock.Counted m 1 m' where
  perCycle ticks := by
    rw [ended, ticks]
    exact Timer.count_tick _
  realtime rests := by
    rw [ended, rests]
    rfl

/-- The subtraction stops at zero, so the cycles add up even if the timer runs out on the way. -/
theorem Counted.trans {clock : Clock} {m n m' : Machine} {before behind : Nat}
    (first : clock.Counted m before n) (mode : n.timerMode = m.timerMode)
    (rest : clock.Counted n behind m') : clock.Counted m (behind + before) m' where
  perCycle ticks := by
    rw [rest.perCycle (mode.trans ticks), first.perCycle ticks]
    omega
  realtime rests := (rest.realtime (mode.trans rests)).trans (first.realtime rests)

end Clock

namespace Machine

variable {m : Machine} {keys : KeySource} {ins : Instruction} {s : Step} {clock : Clock}

/-! ## Instructions -/

theorem execute_setTimerMode (m : Machine) (mode : TimerMode) (ins : Instruction) :
    (m.setTimerMode mode).execute ins =
      { m.execute ins with machine := (m.execute ins).machine.setTimerMode mode } := by
  have ended := m.ends ins
  generalize executed : m.execute ins = o at ended ⊢
  -- no condition on how an instruction ends speaks of the mode, so each holds of the other machine
  apply Ends.execute_eq
  cases ended with
  | stopped stops => exact .stopped (stops.transfer rfl rfl rfl rfl)
  | called pushed => exact .called pushed
  | returned popped => exact .returned popped
  | drawn read => exact .drawn read
  | jumped fits => exact .jumped fits
  | storedDecimal written => exact .storedDecimal written
  | savedRegisters written => exact .savedRegisters written
  | restoredRegisters read copied => exact .restoredRegisters read copied
  | other succeeds =>
    have same : (m.setTimerMode mode).execute ins =
        { m.execute ins with machine := (m.execute ins).machine.setTimerMode mode } := by
      cases ins <;> first | exact False.elim succeeds | rfl
    rw [← same]
    exact .other succeeds

theorem execute_timerMode (m : Machine) (ins : Instruction) :
    (m.execute ins).machine.timerMode = m.timerMode :=
  congrArg (·.machine.timerMode) (m.execute_setTimerMode m.timerMode ins)

theorem execute_timer (m : Machine) (unset : ∀ x, ins ≠ clock.setter x) :
    clock.timer (m.execute ins).machine = clock.timer m := by
  have ended := m.ends ins
  generalize m.execute ins = o at ended ⊢
  cases ended with
  | other succeeds =>
    cases ins with
    | setDelay x | setSound x =>
      cases clock with
      | delay => first | exact absurd rfl (unset x) | rfl
      | sound => first | exact absurd rfl (unset x) | rfl
    | _ =>
      cases clock with
      | delay => first | exact False.elim succeeds | rfl
      | sound => first | exact False.elim succeeds | rfl
  | _ => cases clock <;> rfl

/-! ## Steps -/

theorem timer_cycleTimers (m : Machine) :
    clock.timer m.cycleTimers.1 = (clock.timer m).cycled m.timerMode := by
  unfold cycleTimers
  cases m.timerMode with
  | perCycle => cases clock <;> rfl
  | realtime => rfl

theorem cycleTimers_timerMode (m : Machine) : m.cycleTimers.1.timerMode = m.timerMode := by
  obtain ⟨_, _, ticked⟩ := m.cycleTimers_machine
  rw [ticked]

/-- In both modes a step does the same to the machine and then ends its cycle, or it fails. -/
theorem step_modes (awake : m.state ≠ .halted) (keys : KeySource) :
    (∃ s, ∃ n : Machine, ∀ mode, ((m.setTimerMode mode).step keys).result = .ok s
        ∧ ((m.setTimerMode mode).step keys).machine = (n.setTimerMode mode).cycleTimers.1)
      ∨ ∃ cause, ∃ n : Machine, ∀ mode, ((m.setTimerMode mode).step keys).result = .error cause
        ∧ ((m.setTimerMode mode).step keys).machine = n.setTimerMode mode := by
  have step := m.stepped keys
  generalize (m.step keys).result = result, (m.step keys).machine = machine at step
  cases step with
  | halted halted => exact absurd halted awake
  | waiting waits undecided =>
    refine .inl ⟨.waiting, m.refreshed keys, fun mode => ?_⟩
    exact (Stepped.waiting (m := m.setTimerMode mode) waits undecided).step_eq
  | @received x k waits pressed =>
    refine .inl ⟨.keyReceived (ofNibble k), (m.refreshed keys).resumed x (ofNibble k), fun mode => ?_⟩
    exact (Stepped.received (m := m.setTimerMode mode) waits pressed).step_eq
  | @executed flow runs inside done =>
    refine .inl ⟨.ofInstruction (Instruction.decode m.word),
      ((m.refreshed keys).execute (Instruction.decode m.word)).machine.moved flow, fun mode => ?_⟩
    have same := (m.refreshed keys).execute_setTimerMode mode (Instruction.decode m.word)
    have done' := (congrArg Outcome.result same).trans done
    have told := Stepped.executed (m := m.setTimerMode mode) runs inside done'
    obtain ⟨result, machine⟩ := told.step_eq
    refine ⟨result, ?_⟩
    rw [machine]
    exact congrArg (fun o => (o.machine.moved flow).cycleTimers.1) same
  | ranOff runs outside =>
    refine .inr ⟨.error (.pcOutOfRange m.pc), { m.refreshed keys with state := .halted }, fun mode => ?_⟩
    exact (Stepped.ranOff (m := m.setTimerMode mode) runs outside).step_eq
  | @failed cause runs inside stops =>
    refine .inr ⟨.error cause, { m.refreshed keys with state := .halted }, fun mode => ?_⟩
    exact (Stepped.failed (m := m.setTimerMode mode) runs inside
      (stops.transfer rfl rfl rfl rfl)).step_eq
  | @faulted cause runs inside stops =>
    refine .inr ⟨.fault cause, m.refreshed keys, fun mode => ?_⟩
    exact (Stepped.faulted (m := m.setTimerMode mode) runs inside
      (stops.transfer rfl rfl rfl rfl)).step_eq

/-- A step keeps the timer mode, and what it does to a timer that it does not set is what the end of
    its cycle does. -/
theorem step_timer (clock : Clock) (awake : m.state ≠ .halted)
    (done : (m.step keys).result = .ok s) :
    (m.step keys).machine.timerMode = m.timerMode
      ∧ ((∀ x, s ≠ .executed (clock.setter x)) →
        clock.timer (m.step keys).machine = (clock.timer m).cycled m.timerMode) := by
  have step := m.stepped keys
  generalize (m.step keys).result = result, (m.step keys).machine = machine at done step ⊢
  cases step with
  | halted halted => exact absurd halted awake
  | waiting | received =>
    refine ⟨cycleTimers_timerMode _, fun _ => ?_⟩
    rw [timer_cycleTimers]
    cases clock <;> rfl
  | @executed flow =>
    cases done
    have mode := (m.refreshed keys).execute_timerMode (Instruction.decode m.word)
    refine ⟨(cycleTimers_timerMode _).trans mode, fun unset => ?_⟩
    have other : ∀ x, Instruction.decode m.word ≠ clock.setter x := by
      intro x decoded
      apply unset x
      rw [decoded]
      cases clock <;> rfl
    have kept := execute_timer (m.refreshed keys) other
    -- the mode that decides on the tick is the one from before the instruction
    rw [timer_cycleTimers]
    change (clock.timer _).cycled ((m.refreshed keys).execute _).machine.timerMode = _
    rw [mode]
    cases clock with
    | delay => exact congrArg (Timer.cycled · m.timerMode) kept
    | sound => exact congrArg (Timer.cycled · m.timerMode) kept
  | ranOff | failed | faulted => cases done

theorem step_readDelay {x : UInt8} (read : (m.step keys).result = .ok (.executed (.readDelay x))) :
    (m.step keys).machine.v x = m.delay.count
      ∧ (m.step keys).machine.delay = m.delay.cycled m.timerMode := by
  obtain ⟨_, _, _, flow, _, left⟩ := of_executed read
  obtain ⟨_, _, ticked⟩ :=
    (((m.refreshed keys).execute (.readDelay x)).machine.moved flow).cycleTimers_machine
  have delay := @timer_cycleTimers .delay
    (((m.refreshed keys).execute (.readDelay x)).machine.moved flow)
  constructor
  · rw [left, ticked]
    show (m.registers.set x m.delay.count).get x = _
    simp
  · rw [left]
    exact delay

/-! ## Sequences of steps -/

theorem after_counted (clock : Clock) (ks : List KeySource) (awake : m.state ≠ .halted)
    (done : ∀ moment ∈ m.moments (ks.map .step), ∃ s, moment.result = .ok s)
    (unset : ∀ moment ∈ m.moments (ks.map .step), ∀ x,
      moment.result ≠ .ok (.executed (clock.setter x))) :
    clock.Counted m ks.length (m.after (ks.map .step)) := by
  induction ks generalizing m with
  | nil => exact ⟨fun _ => rfl, fun _ => rfl⟩
  | cons keys ks ih =>
    obtain ⟨s, first⟩ := done ⟨m, keys⟩ (List.mem_cons_self ..)
    obtain ⟨mode, timer⟩ := step_timer clock awake first
    have counted := timer fun x same =>
      unset ⟨m, keys⟩ (List.mem_cons_self ..) x (first.trans (congrArg Except.ok same))
    have rest := ih (awake_of_ok awake first)
      (fun moment member => done moment (List.mem_cons_of_mem _ member))
      (fun moment member => unset moment (List.mem_cons_of_mem _ member))
    exact (Clock.Counted.of_cycled counted).trans mode rest

/-- The timer modes agree up to who ticks.  A step of a machine that is not halted answers the same
    in both modes; if it gives a value, the mode that ticks leaves the machine of the other one
    after a tick of the host's, and if it fails, the same machine.  So along any steps that give
    values a timer that is not set loses one for each of them, down to zero, or stays as it is; and
    an instruction that reads the delay timer finds it in front of the tick of its own step. -/
theorem timer_modes_agree (m : Machine) (awake : m.state ≠ .halted) :
    (∀ keys,
        ((m.setTimerMode .perCycle).step keys).result
            = ((m.setTimerMode .realtime).step keys).result
          ∧ (∀ s, ((m.setTimerMode .perCycle).step keys).result = .ok s →
              ((m.setTimerMode .perCycle).step keys).machine
                = ((m.setTimerMode .realtime).step keys).machine.tickTimers.1.setTimerMode
                    .perCycle)
          ∧ ∀ cause, ((m.setTimerMode .perCycle).step keys).result = .error cause →
              ((m.setTimerMode .perCycle).step keys).machine
                = ((m.setTimerMode .realtime).step keys).machine.setTimerMode .perCycle)
      ∧ ∀ ks : List KeySource, (∀ moment ∈ m.moments (ks.map .step), ∃ s, moment.result = .ok s) →
          (∀ clock : Clock,
              (∀ moment ∈ m.moments (ks.map .step), ∀ x,
                moment.result ≠ .ok (.executed (clock.setter x))) →
              clock.Counted m ks.length (m.after (ks.map .step)))
            ∧ ∀ moment ∈ m.moments (ks.map .step), ∀ x,
                moment.result = .ok (.executed (.readDelay x)) →
                  moment.left.v x = moment.machine.delay.count
                    ∧ moment.left.delay = moment.machine.delay.cycled moment.machine.timerMode := by
  constructor
  · intro keys
    rcases step_modes awake keys with ⟨s, n, both⟩ | ⟨cause, n, both⟩
    · obtain ⟨ticking, ticked⟩ := both .perCycle
      obtain ⟨resting, rested⟩ := both .realtime
      refine ⟨ticking.trans resting.symm, fun _ _ => ?_, fun _ failed => ?_⟩
      · rw [ticked, rested]
        rfl
      · rw [ticking] at failed
        cases failed
    · obtain ⟨ticking, left⟩ := both .perCycle
      obtain ⟨resting, left'⟩ := both .realtime
      refine ⟨ticking.trans resting.symm, fun _ done => ?_, fun _ _ => ?_⟩
      · rw [ticking] at done
        cases done
      · rw [left, left']
        rfl
  · intro ks done
    refine ⟨fun clock unset => after_counted clock ks awake done unset, ?_⟩
    intro moment _ x read
    exact step_readDelay read

/-- A machine whose program reads the delay timer and then waits for a key. -/
def timed : Machine :=
  { fresh (.arithmetic 0 0) with
    memory := (⟨Vector.replicate 4096 0⟩ : Memory).store 0x200 [0x61, 0x00, 0xF1, 0x07, 0xF2, 0x0A]
    delay := ⟨3⟩
    sound := ⟨200⟩ }

/-- Four steps without a key, the last one in vain, and one with the key 5. -/
def patience : List KeySource :=
  [fun _ => false, fun _ => false, fun _ => false, fun _ => false, fun k => k == 5]

/-- The second of these steps. -/
def reading : Moment :=
  ⟨(timed.step fun _ => false).machine, fun _ => false⟩

theorem timed_answers :
    (timed.moments (patience.map .step)).map (·.result)
      = [.ok (.executed (.loadByte 1 0)), .ok (.executed (.readDelay 1)),
        .ok (.executed (.awaitKey 2)), .ok .waiting, .ok (.keyReceived 5)] := by
  decide +kernel

theorem timer_modes_agree_timed :
    (timed.after (patience.map .step)).delay.count.toNat = 0
      ∧ (timed.after (patience.map .step)).sound.count.toNat = 195
      ∧ reading.left.v 1 = reading.machine.delay.count
      ∧ ((timed.setTimerMode .perCycle).step fun _ => true).result
          = ((timed.setTimerMode .realtime).step fun _ => true).result := by
  have answered : ∀ moment ∈ timed.moments (patience.map .step),
      moment.result ∈ (timed.moments (patience.map .step)).map (·.result) :=
    fun _ member => List.mem_map_of_mem member
  rw [timed_answers] at answered
  have done : ∀ moment ∈ timed.moments (patience.map .step), ∃ s, moment.result = .ok s := by
    intro moment member
    have listed := answered moment member
    simp only [List.mem_cons, List.not_mem_nil, or_false] at listed
    rcases listed with told | told | told | told | told <;> exact ⟨_, told⟩
  have unset : ∀ clock : Clock, ∀ moment ∈ timed.moments (patience.map .step), ∀ x,
      moment.result ≠ .ok (.executed (clock.setter x)) := by
    intro clock moment member x set
    have listed := answered moment member
    rw [set] at listed
    cases clock <;> simp [Clock.setter] at listed
  obtain ⟨modes, sequences⟩ := timer_modes_agree timed RunState.noConfusion
  obtain ⟨counts, reads⟩ := sequences patience done
  have second : reading ∈ timed.moments (patience.map .step) :=
    List.mem_cons_of_mem _ (List.mem_cons_self ..)
  have read : reading.result = .ok (.executed (.readDelay 1)) := by
    decide +kernel
  obtain ⟨delay, _⟩ := counts .delay (unset .delay)
  obtain ⟨sound, _⟩ := counts .sound (unset .sound)
  simp only [Clock.timer] at delay sound
  exact ⟨(delay rfl).trans (by decide), (sound rfl).trans (by decide),
    (reads _ second 1 read).1, (modes _).1⟩

end Machine

end Chip8
