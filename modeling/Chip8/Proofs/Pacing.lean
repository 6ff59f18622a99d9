import Chip8.Proofs.Framing
import Chip8.Proofs.Turns

/-! # The frame rate does not leak into the program

A machine that clocks its own timers cannot tell in which batches its steps come: after any number
of turns it is what as many steps of the loaded machine as there were in all the batches leave
behind.  A machine whose timers are left to the host loses one count per turn, however many steps
are in a batch.

The non-trivial ingredient is that no step looks at the redraw flag (`step_marked`), which the host
lowers between two batches and the steps alone never do.
-/

namespace Chip8

namespace Machine

variable {m m' : Machine} {keys : KeySource} {clock : Clock}

/-! ## The redraw flag -/

/-- The machine with its redraw flag up or down. -/
def marked (m : Machine) (redraw : Bool) : Machine :=
  { m with redraw }

theorem execute_marked (m : Machine) (redraw : Bool) (ins : Instruction) : ∃ redraw',
    (m.marked redraw).execute ins =
      { m.execute ins with machine := (m.execute ins).machine.marked redraw' } := by
  have ended := m.ends ins
  generalize executed : m.execute ins = o at ended ⊢
  -- no condition on how an instruction ends speaks of the flag, so each holds of the other machine
  cases ended with
  | stopped stops => exact ⟨redraw, execute_of_stops (stops.transfer rfl rfl rfl rfl)⟩
  | called pushed => exact ⟨redraw, Ends.execute_eq (m := m.marked redraw) (.called pushed)⟩
  | returned popped => exact ⟨redraw, Ends.execute_eq (m := m.marked redraw) (.returned popped)⟩
  | drawn read => exact ⟨true, Ends.execute_eq (m := m.marked redraw) (.drawn read)⟩
  | jumped fits => exact ⟨redraw, Ends.execute_eq (m := m.marked redraw) (.jumped fits)⟩
  | storedDecimal written =>
    exact ⟨redraw, Ends.execute_eq (m := m.marked redraw) (.storedDecimal written)⟩
  | savedRegisters written =>
    exact ⟨redraw, Ends.execute_eq (m := m.marked redraw) (.savedRegisters written)⟩
  | restoredRegisters read copied =>
    exact ⟨redraw, Ends.execute_eq (m := m.marked redraw) (.restoredRegisters read copied)⟩
  | other succeeds =>
    cases ins with
    | clearScreen => exact ⟨true, rfl⟩
    | _ => first | exact False.elim succeeds | exact ⟨redraw, rfl⟩

theorem cycleTimers_marked (m : Machine) (redraw : Bool) :
    (m.marked redraw).cycleTimers.1 = m.cycleTimers.1.marked redraw := by
  rw [cycleTimers_eq, cycleTimers_eq]
  rfl

/-- No step looks at the redraw flag. -/
theorem step_marked (m : Machine) (redraw : Bool) (keys : KeySource) : ∃ redraw',
    ((m.marked redraw).step keys).machine = (m.step keys).machine.marked redraw' := by
  have step := m.stepped keys
  generalize (m.step keys).result = result, (m.step keys).machine = machine at step ⊢
  cases step with
  | halted halted =>
    exact ⟨redraw, (Stepped.halted (m := m.marked redraw) halted).step_eq.2⟩
  | waiting waits undecided =>
    refine ⟨redraw, ?_⟩
    rw [(Stepped.waiting (m := m.marked redraw) waits undecided).step_eq.2]
    exact cycleTimers_marked (m.refreshed keys) redraw
  | @received x k waits pressed =>
    refine ⟨redraw, ?_⟩
    rw [(Stepped.received (m := m.marked redraw) waits pressed).step_eq.2]
    exact cycleTimers_marked ((m.refreshed keys).resumed x (ofNibble k)) redraw
  | @executed flow runs inside done =>
    obtain ⟨redraw', same⟩ := (m.refreshed keys).execute_marked redraw (Instruction.decode m.word)
    have done' := (congrArg Outcome.result same).trans done
    refine ⟨redraw', ?_⟩
    rw [(Stepped.executed (m := m.marked redraw) runs inside done').step_eq.2]
    refine (congrArg (fun o => (o.machine.moved flow).cycleTimers.1) same).trans ?_
    exact cycleTimers_marked (Machine.moved ((m.refreshed keys).execute _).machine flow) redraw'
  | ranOff runs outside =>
    exact ⟨redraw, (Stepped.ranOff (m := m.marked redraw) runs outside).step_eq.2⟩
  | failed runs inside stops =>
    exact ⟨redraw, (Stepped.failed (m := m.marked redraw) runs inside
      (stops.transfer rfl rfl rfl rfl)).step_eq.2⟩
  | faulted runs inside stops =>
    exact ⟨redraw, (Stepped.faulted (m := m.marked redraw) runs inside
      (stops.transfer rfl rfl rfl rfl)).step_eq.2⟩

/-- Nor do any number of steps. -/
theorem afterSteps_marked (m : Machine) (redraw : Bool) (keys : KeySource) (n : Nat) :
    ∃ redraw', (m.marked redraw).afterSteps keys n = (m.afterSteps keys n).marked redraw' := by
  induction n generalizing m redraw with
  | zero => exact ⟨redraw, rfl⟩
  | succ n ih =>
    obtain ⟨redraw', stepped⟩ := m.step_marked redraw keys
    rw [afterSteps, afterSteps, stepped]
    exact ih _ redraw'

/-- Machines that differ in the flag at most do so after any number of steps. -/
theorem afterSteps_unmarked (same : m.marked false = m'.marked false) (n : Nat) :
    (m.afterSteps keys n).marked false = (m'.afterSteps keys n).marked false := by
  obtain ⟨flag, left⟩ := m.afterSteps_marked false keys n
  obtain ⟨flag', left'⟩ := m'.afterSteps_marked false keys n
  rw [same, left'] at left
  exact (congrArg (marked · false) left).symm

/-! ## Timers that are left to the host -/

theorem step_timer_rests (rests : m.timerMode = .realtime)
    (unset : ∀ x, (m.step keys).result ≠ .ok (.executed (clock.setter x))) :
    clock.timer (m.step keys).machine = clock.timer m := by
  by_cases halted : m.state = .halted
  · rw [step_of_halted halted]
    rfl
  cases result : (m.step keys).result with
  | ok s =>
    have kept := (step_timer clock halted result).2 fun x set =>
      unset x (result.trans (congrArg Except.ok set))
    rw [kept, rests]
    rfl
  | error cause =>
    cases cause with
    | error cause =>
      rw [machine_of_step_error result]
      cases clock <;> rfl
    | fault cause =>
      rw [machine_of_step_fault result]
      cases clock <;> rfl

theorem run_timer_rests (rests : m.timerMode = .realtime) {n : Nat}
    (unset : ∀ moment ∈ m.runMoments keys n, ∀ x,
      moment.result ≠ .ok (.executed (clock.setter x))) :
    clock.timer (m.run n keys).machine = clock.timer m := by
  refine (run_composes (R := fun m ms m' => m.timerMode = .realtime →
    (∀ moment ∈ ms, ∀ x, moment.result ≠ .ok (.executed (clock.setter x))) →
      m'.timerMode = .realtime ∧ clock.timer m' = clock.timer m) ?_ ?_ ?_ m keys n rests unset).2
  · intro _ rests _
    exact ⟨rests, rfl⟩
  · intro moment rests unset
    refine ⟨(step_timerMode _ _).trans rests, step_timer_rests rests ?_⟩
    exact unset moment (List.mem_singleton_self _)
  · intro _ _ _ _ _ first second rests unset
    obtain ⟨rests', early⟩ :=
      first rests fun moment member => unset moment (List.mem_append_left _ member)
    obtain ⟨rests'', late⟩ :=
      second rests' fun moment member => unset moment (List.mem_append_right _ member)
    exact ⟨rests'', late.trans early⟩

theorem timer_tickTimers (m : Machine) : clock.timer m.tickTimers.1 = (clock.timer m).tick := by
  cases clock <;> rfl

end Machine

/-- The keys of the keypad that a set of physical keys holds down. -/
def Screen.keysOf (held : List PhysicalKey) : KeySource :=
  fun k => held.contains (keymap.get k)

/-- Whether exactly these keys are held in all frames. -/
def Script.Holds (script : Script) (held : List PhysicalKey) : Prop :=
  ∀ frame < script.frames, ∀ key, key ∈ script.heldAt frame ↔ key ∈ held

namespace Session

variable {s t u : Session} {pace : Pace} {k : Nat} {clock : Clock} {held : List PhysicalKey}

theorem keys_of_holds (holds : s.screen.window.script.Holds held) (opened : s.isOpen = true) :
    s.screen.keys = Screen.keysOf held := by
  have inside : s.screen.window.counter < s.screen.window.script.frames := by
    have left := framesLeft_pos opened
    rw [Window.framesLeft] at left
    omega
  funext k
  rw [Screen.keys, Window.isHeld, Screen.keysOf, Bool.eq_iff_iff, List.contains_iff_mem,
    List.contains_iff_mem]
  exact holds _ inside _

/-! ## One turn -/

theorem machine_of_next (went : s.turn pace = .next t) (perCycle : pace.timerMode = .perCycle) :
    t.machine = (s.machine.afterSteps s.screen.keys pace.cycles).marked false := by
  obtain ⟨_, served⟩ := served_of_next went
  rw [served.machine, staged_machine, perCycle, outcome, Machine.run_machine]
  rfl

theorem timer_of_next (ready : s.Ready pace) (went : s.turn pace = .next t)
    (realtime : pace.timerMode = .realtime)
    (unset : ∀ moment ∈ s.batch pace, ∀ x, moment.result ≠ .ok (.executed (clock.setter x))) :
    (clock.timer t.machine).count.toNat = (clock.timer s.machine).count.toNat - 1 := by
  obtain ⟨_, served⟩ := served_of_next went
  have staged : clock.timer t.machine = clock.timer (s.staged pace).machine := by
    rw [served.machine]
    cases clock <;> rfl
  have rests := ready.timerMode.trans realtime
  rw [staged, staged_machine, realtime]
  dsimp only
  rw [Machine.timer_tickTimers, Timer.count_tick, outcome, Machine.run_timer_rests rests unset]

/-! ## Many turns -/

theorem machine_afterTurns (holds : s.screen.window.script.Holds held)
    (perCycle : pace.timerMode = .perCycle) (reached : s.afterTurns pace k = some t) :
    t.machine.marked false =
      (s.machine.afterSteps (Screen.keysOf held) (k * pace.cycles)).marked false := by
  refine afterTurns_preserves (P := fun k t => t.machine.marked false =
    (s.machine.afterSteps (Screen.keysOf held) (k * pace.cycles)).marked false) ?_ ?_ reached
  · rw [Nat.zero_mul]
    rfl
  · intro k t u reached opened went same
    rw [← (window_afterTurns reached).1] at holds
    rw [machine_of_next went perCycle, keys_of_holds holds opened, Nat.succ_mul,
      Machine.afterSteps_add]
    exact Machine.afterSteps_unmarked same pace.cycles

theorem timer_afterTurns (ready : s.Ready pace) (realtime : pace.timerMode = .realtime)
    (unset : ∀ i < k, ∀ t, s.afterTurns pace i = some t → ∀ moment ∈ t.batch pace, ∀ x,
      moment.result ≠ .ok (.executed (clock.setter x)))
    (reached : s.afterTurns pace k = some t) :
    (clock.timer t.machine).count.toNat = (clock.timer s.machine).count.toNat - k := by
  induction k generalizing t with
  | zero =>
    cases reached
    rfl
  | succ k ih =>
    obtain ⟨u, before, _, went⟩ := afterTurns_succ_eq_some_iff.mp reached
    have early := ih (fun i inside => unset i (Nat.lt_succ_of_lt inside)) before
    have last := timer_of_next (ready.afterTurns before) went realtime
      (unset k (Nat.lt_succ_self k) u before)
    omega

/-- Once a picture was due the flag is down between two turns. -/
theorem marked_afterTurns (reached : s.afterTurns pace k = some t) (later : 0 < k) :
    t.machine.marked false = t.machine := by
  refine afterTurns_preserves (P := fun k t => 0 < k → t.machine.marked false = t.machine)
    (fun none => absurd none (Nat.lt_irrefl 0)) ?_ reached later
  intro _ _ _ _ _ went _ _
  obtain ⟨_, served⟩ := served_of_next went
  rw [served.machine]
  rfl

end Session

namespace Program

/-- The program is `rom`, it clocks its own timers, and these keys and no others are held for as
    long as the window is open. -/
structure Steady (around : Surroundings) (config : Config) (rom : List UInt8)
    (held : List PhysicalKey) : Prop where
  read : around.read config.rom = .ok rom
  perCycle : config.timerMode = .perCycle
  holds : around.script.Holds held

variable {around around' : Surroundings} {config config' : Config} {rom : List UInt8}
  {held : List PhysicalKey} {s s' t t' : Session} {pace pace' : Pace} {k k' : Nat}

theorem timerMode_of_prepare (went : prepare around config = .ok (s, pace)) :
    pace.timerMode = config.timerMode := by
  have prepared := prepared around config
  rw [went] at prepared
  cases prepared with
  | ready => rfl

theorem Steady.start (steady : Steady around config rom held)
    (went : prepare around config = .ok (s, pace)) :
    s.machine = .loaded around.random .perCycle rom ∧ s.screen.window.script.Holds held
      ∧ 0 < pace.cycles := by
  have prepared := prepared around config
  rw [went] at prepared
  cases prepared with
  | ready read _ _ rate =>
    refine ⟨?_, steady.holds, ?_⟩
    · rw [Except.ok.inj (read.symm.trans steady.read), steady.perCycle]
    · unfold Config.cyclesPerFrame at rate
      split at rate
      next =>
        cases rate
        exact Nat.lt_of_lt_of_le Nat.one_pos (Nat.le_max_left ..)
      next => cases rate

theorem Steady.machine_afterTurns (steady : Steady around config rom held)
    (went : prepare around config = .ok (s, pace)) (reached : s.afterTurns pace k = some t) :
    t.machine.marked false = ((Machine.loaded around.random .perCycle rom).afterSteps
      (Screen.keysOf held) (k * pace.cycles)).marked false := by
  obtain ⟨start, holds, _⟩ := steady.start went
  rw [← start]
  have perCycle := (timerMode_of_prepare went).trans steady.perCycle
  exact Session.machine_afterTurns holds perCycle reached

theorem Steady.same_machine (steady : Steady around config rom held)
    (steady' : Steady around' config' rom held) (random : around'.random = around.random)
    (went : prepare around config = .ok (s, pace))
    (went' : prepare around' config' = .ok (s', pace'))
    (reached : s.afterTurns pace k = some t) (reached' : s'.afterTurns pace' k' = some t')
    (steps : k * pace.cycles = k' * pace'.cycles) : t.machine = t'.machine := by
  obtain ⟨start, _, positive⟩ := steady.start went
  obtain ⟨start', _, positive'⟩ := steady'.start went'
  rcases Nat.eq_zero_or_pos k with rfl | later
  · -- without a step there was no turn on either side
    obtain rfl : k' = 0 := by
      rw [Nat.zero_mul] at steps
      exact (Nat.mul_eq_zero.mp steps.symm).resolve_right (Nat.ne_of_gt positive')
    cases reached
    cases reached'
    rw [start, start', random]
  · have later' : 0 < k' := Nat.pos_of_mul_pos_right (steps ▸ Nat.mul_pos later positive)
    have left := steady.machine_afterTurns went reached
    have left' := steady'.machine_afterTurns went' reached'
    rw [Session.marked_afterTurns reached later] at left
    rw [Session.marked_afterTurns reached' later'] at left'
    rw [left, left', random, steps]

/-- The frame rate does not leak into the program.  If the program clocks its own timers and the
    same keys are held all along, any number of turns leave what as many steps of the loaded machine
    as there are in their batches leave, up to the redraw flag; so two command lines for the same
    program reach the same machine whenever they have taken the same number of steps.  If the timers
    are left to the host, a timer that the program does not set loses one for each turn, down to
    zero, however many steps there are in a batch. -/
theorem frame_rate_does_not_leak (went : prepare around config = .ok (s, pace)) :
    (∀ rom held, Steady around config rom held →
        (∀ k t, s.afterTurns pace k = some t →
          t.machine.marked false = ((Machine.loaded around.random .perCycle rom).afterSteps
            (Screen.keysOf held) (k * pace.cycles)).marked false)
        ∧ ∀ around' config' s' pace', prepare around' config' = .ok (s', pace') →
            Steady around' config' rom held → around'.random = around.random →
            ∀ k t k' t', s.afterTurns pace k = some t → s'.afterTurns pace' k' = some t' →
              k * pace.cycles = k' * pace'.cycles → t.machine = t'.machine)
      ∧ (config.timerMode = .realtime → ∀ (clock : Clock) j k t u,
          s.afterTurns pace j = some t → t.afterTurns pace k = some u →
          (∀ i < k, ∀ t', t.afterTurns pace i = some t' → ∀ moment ∈ t'.batch pace, ∀ x,
            moment.result ≠ .ok (.executed (clock.setter x))) →
          (clock.timer u.machine).count.toNat = (clock.timer t.machine).count.toNat - k) := by
  constructor
  · intro rom held steady
    refine ⟨fun k t reached => steady.machine_afterTurns went reached, ?_⟩
    intro around' config' s' pace' went' steady' random k t k' t' reached reached' steps
    exact steady.same_machine steady' random went went' reached reached' steps
  · intro realtime clock j k t u reached reached' unset
    have ready := (ready_of_prepare went).afterTurns reached
    have host := (timerMode_of_prepare went).trans realtime
    exact Session.timer_afterTurns ready host unset reached'

/-- A program that counts in V0, in front of a window that is open for three frames with a key held
    all along. -/
def counting : Surroundings where
  read _ := .ok [0x70, 0x01, 0x12, 0x00]
  script := { Script.empty with frames := 3, down := List.replicate 3 [⟨"X"⟩] }
  random := .arithmetic 0 0

/-- A program that sets its delay timer to five and then does nothing, in front of a window that is
    open for four frames. -/
def delaying : Surroundings where
  read _ := .ok [0x60, 0x05, 0xF0, 0x15, 0x12, 0x04]
  script := { Script.empty with frames := 4 }
  random := .arithmetic 0 0

def atRate (rate : UInt32) (mode : TimerMode) : Config where
  rom := "count.ch8"
  cyclesPerSecond := rate
  timerMode := mode
  scale := .x1

theorem counting_steady (rate : UInt32) :
    Steady counting (atRate rate .perCycle) [0x70, 0x01, 0x12, 0x00] [⟨"X"⟩] where
  read := rfl
  perCycle := rfl
  holds := by
    intro frame inside key
    have held : ∀ frame < 3, counting.script.heldAt frame = [⟨"X"⟩] := by decide
    rw [held frame inside]

/-- Whether a batch does nothing but jump to where it is. -/
def idle (t : Session) (pace : Pace) : Bool :=
  (t.batch pace).all fun moment => decide (moment.result = .ok (.executed (.jump 0x204)))

theorem unset_of_idle {t : Session} {pace : Pace} (idle : idle t pace = true) (clock : Clock) :
    ∀ moment ∈ t.batch pace, ∀ x, moment.result ≠ .ok (.executed (clock.setter x)) := by
  intro moment member x set
  have jumps := of_decide_eq_true (List.all_eq_true.mp idle moment member)
  rw [set] at jumps
  cases clock <;> cases jumps

theorem counting_and_delaying :
    (∃ s pace t s' pace' t', prepare counting (atRate 60 .perCycle) = .ok (s, pace)
        ∧ s.afterTurns pace 2 = some t
        ∧ prepare counting (atRate 120 .perCycle) = .ok (s', pace')
        ∧ s'.afterTurns pace' 1 = some t' ∧ t.machine = t'.machine)
      ∧ ∃ s pace t u, prepare delaying (atRate 180 .realtime) = .ok (s, pace)
        ∧ s.afterTurns pace 1 = some t ∧ t.afterTurns pace 2 = some u
        ∧ u.machine.delay.count.toNat = 2 := by
  constructor
  · have slow : after counting (atRate 60 .perCycle) 2 (fun _ pace => some pace.cycles)
        = some 1 := by
      decide +kernel
    have fast : after counting (atRate 120 .perCycle) 1 (fun _ pace => some pace.cycles)
        = some 2 := by
      decide +kernel
    obtain ⟨s, pace, t, went, reached, cycles⟩ := reached_of_after slow
    obtain ⟨s', pace', t', went', reached', cycles'⟩ := reached_of_after fast
    refine ⟨s, pace, t, s', pace', t', went, reached, went', reached', ?_⟩
    obtain ⟨_, same⟩ := (frame_rate_does_not_leak went).1 _ _ (counting_steady 60)
    apply same _ _ _ _ went' (counting_steady 120) rfl 2 t 1 t' reached reached'
    rw [Option.some.inj cycles, Option.some.inj cycles']
  · have goes : after delaying (atRate 180 .realtime) 1 (fun t pace =>
        if idle t pace then (t.another pace).bind fun u =>
          if idle u pace then (u.another pace).map fun _ => t.machine.delay.count.toNat else none
        else none) = some 4 := by
      decide +kernel
    obtain ⟨s, pace, t, went, reached, looked⟩ := reached_of_after goes
    simp only [Option.ite_none_right_eq_some, Option.bind_eq_some_iff, Option.map_eq_some_iff]
      at looked
    obtain ⟨idle, u, taken, idle', v, taken', count⟩ := looked
    have reached' : t.afterTurns pace 1 = some u := taken
    have reached'' : t.afterTurns pace 2 = some v := by
      rw [Session.afterTurns, reached']
      exact taken'
    have unset : ∀ i < 2, ∀ t', t.afterTurns pace i = some t' → ∀ moment ∈ t'.batch pace, ∀ x,
        moment.result ≠ .ok (.executed (Clock.delay.setter x)) := by
      intro i inside t' before
      rcases Nat.le_one_iff_eq_zero_or_eq_one.mp (Nat.le_of_lt_succ inside) with rfl | rfl
      · cases before
        exact unset_of_idle idle .delay
      · cases reached'.symm.trans before
        exact unset_of_idle idle' .delay
    have left := (frame_rate_does_not_leak went).2 rfl .delay 1 2 t v reached reached'' unset
    refine ⟨s, pace, t, v, went, reached, reached'', left.trans ?_⟩
    show t.machine.delay.count.toNat - 2 = 2
    rw [count]

end Program

end Chip8
