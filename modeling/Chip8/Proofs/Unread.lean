import Chip8.Proofs.Framing
import Mathlib.Data.List.Forall2

/-! # Inputs that are not read

A program hears of the world around it through keys, random bytes and timers, and five instructions
look at these.  As long as it executes none of the five, two machines that differ in nothing but
their inputs take the same steps, whatever keys are down in front of either.

The non-trivial ingredient is `step_withInputs`: apart from those five instructions nothing that a
step does carries anything over from the inputs into the rest of the machine, not even when the step
fails.  A machine that waits for a key is the one exception, and only one of the five makes it wait.
-/

namespace Chip8

/-- Whether the instruction looks at a key, a random byte or a timer. -/
def Instruction.readsInput : Instruction → Bool
  | .skipIfKey _ | .skipUnlessKey _ | .awaitKey _ | .random .. | .readDelay _ => true
  | _ => false

/-- The step executes no instruction that looks at an input. -/
def Moment.Blind (moment : Moment) : Prop :=
  ∀ ins, moment.result = .ok (.executed ins) → ins.readsInput = false

/-- Everything there is to know about a step. -/
def Moment.outcome (moment : Moment) : Outcome Step :=
  moment.machine.step moment.keys

/-- What a machine has from the world around it. -/
structure Inputs where
  keypad : Keypad
  random : RandomSource
  delay : Timer
  sound : Timer
  timerMode : TimerMode

def Inputs.refreshed (inputs : Inputs) (keys : KeySource) : Inputs :=
  { inputs with keypad := inputs.keypad.refresh keys }

namespace Machine

/-- The machine with other inputs. -/
def withInputs (m : Machine) (inputs : Inputs) : Machine :=
  { m with
    keypad := inputs.keypad
    random := inputs.random
    delay := inputs.delay
    sound := inputs.sound
    timerMode := inputs.timerMode }

/-- The two machines have everything in common but their inputs. -/
structure Agrees (m m' : Machine) : Prop where
  registers : m'.registers = m.registers
  memory : m'.memory = m.memory
  pc : m'.pc = m.pc
  index : m'.index = m.index
  stack : m'.stack = m.stack
  display : m'.display = m.display
  redraw : m'.redraw = m.redraw
  state : m'.state = m.state

variable {m m' : Machine} {keys keys' : KeySource} {ins : Instruction} {x : UInt8}

theorem agrees_iff : m.Agrees m' ↔ ∃ inputs, m' = m.withInputs inputs := by
  constructor
  · intro agrees
    refine ⟨⟨m'.keypad, m'.random, m'.delay, m'.sound, m'.timerMode⟩, ?_⟩
    obtain ⟨registers, memory, pc, index, stack, display, redraw, state⟩ := agrees
    simp only [withInputs, ← registers, ← memory, ← pc, ← index, ← stack, ← display, ← redraw,
      ← state]
  · rintro ⟨inputs, rfl⟩
    exact ⟨rfl, rfl, rfl, rfl, rfl, rfl, rfl, rfl⟩

/-! ## Instructions -/

theorem execute_withInputs (m : Machine) (inputs : Inputs) (blind : ins.readsInput = false) :
    ∃ inputs', (m.withInputs inputs).execute ins =
      { m.execute ins with machine := (m.execute ins).machine.withInputs inputs' } := by
  have ended := m.ends ins
  generalize executed : m.execute ins = o at ended ⊢
  -- no condition on how an instruction ends speaks of an input, so each holds of the other machine
  cases ended with
  | stopped stops => exact ⟨inputs, execute_of_stops (stops.transfer rfl rfl rfl rfl)⟩
  | called pushed => exact ⟨inputs, Ends.execute_eq (m := m.withInputs inputs) (.called pushed)⟩
  | returned popped =>
    exact ⟨inputs, Ends.execute_eq (m := m.withInputs inputs) (.returned popped)⟩
  | drawn read => exact ⟨inputs, Ends.execute_eq (m := m.withInputs inputs) (.drawn read)⟩
  | jumped fits => exact ⟨inputs, Ends.execute_eq (m := m.withInputs inputs) (.jumped fits)⟩
  | storedDecimal written =>
    exact ⟨inputs, Ends.execute_eq (m := m.withInputs inputs) (.storedDecimal written)⟩
  | savedRegisters written =>
    exact ⟨inputs, Ends.execute_eq (m := m.withInputs inputs) (.savedRegisters written)⟩
  | restoredRegisters read copied =>
    exact ⟨inputs, Ends.execute_eq (m := m.withInputs inputs) (.restoredRegisters read copied)⟩
  | other succeeds =>
    cases ins with
    | skipIfKey | skipUnlessKey | awaitKey | random | readDelay => cases blind
    -- the timers are inputs, so setting one leaves the rest of the machine as it is
    | setDelay x => exact ⟨{ inputs with delay := ⟨m.v x⟩ }, rfl⟩
    | setSound x => exact ⟨{ inputs with sound := ⟨m.v x⟩ }, rfl⟩
    | _ => first | exact False.elim succeeds | exact ⟨inputs, rfl⟩

/-! ## Steps -/

theorem cycleTimers_withInputs (m : Machine) (inputs : Inputs) : ∃ inputs',
    (m.withInputs inputs).cycleTimers.1 = m.cycleTimers.1.withInputs inputs' := by
  rw [cycleTimers_eq, cycleTimers_eq]
  exact ⟨{ inputs with
    delay := inputs.delay.cycled inputs.timerMode
    sound := inputs.sound.cycled inputs.timerMode }, rfl⟩

/-- What a running machine is about to execute is known from its answer. -/
theorem decoded_blind (blind : Moment.Blind ⟨m, keys⟩)
    (answered : (m.step keys).result = .ok (.ofInstruction (Instruction.decode m.word))) :
    (Instruction.decode m.word).readsInput = false := by
  generalize Instruction.decode m.word = ins at answered ⊢
  cases ins with
  | unknown => rfl
  | _ => exact blind _ answered

/-- A step that looks at no input does the same to a machine with other inputs, in front of other
    keys. -/
theorem step_withInputs (inputs : Inputs) (keys' : KeySource)
    (unsuspended : ∀ x, m.state ≠ .waitingForKey x) (blind : Moment.Blind ⟨m, keys⟩) :
    ((m.withInputs inputs).step keys').result = (m.step keys).result
      ∧ ∃ inputs', ((m.withInputs inputs).step keys').machine =
          (m.step keys).machine.withInputs inputs' := by
  have step := m.stepped keys
  have decoded := decoded_blind blind
  generalize (m.step keys).result = result, (m.step keys).machine = machine at step decoded ⊢
  cases step with
  | halted halted =>
    have told : (m.withInputs inputs).Stepped keys' _ _ := .halted halted
    exact ⟨told.step_eq.1, inputs, told.step_eq.2⟩
  | waiting waits | received waits => exact absurd waits (unsuspended _)
  | @executed flow runs inside done =>
    obtain ⟨inputs', same⟩ :=
      (m.refreshed keys).execute_withInputs (inputs.refreshed keys') (decoded rfl)
    have done' := (congrArg Outcome.result same).trans done
    have told : (m.withInputs inputs).Stepped keys' _ _ := .executed runs inside done'
    obtain ⟨result, left⟩ := told.step_eq
    obtain ⟨inputs'', ticked⟩ := cycleTimers_withInputs
      (((m.refreshed keys).execute (Instruction.decode m.word)).machine.moved flow) inputs'
    refine ⟨result, inputs'', left.trans ?_⟩
    exact (congrArg (fun o => (o.machine.moved flow).cycleTimers.1) same).trans ticked
  | ranOff runs outside =>
    have told : (m.withInputs inputs).Stepped keys' _ _ := .ranOff runs outside
    exact ⟨told.step_eq.1, inputs.refreshed keys', told.step_eq.2⟩
  | failed runs inside stops =>
    have told : (m.withInputs inputs).Stepped keys' _ _ :=
      .failed runs inside (stops.transfer rfl rfl rfl rfl)
    exact ⟨told.step_eq.1, inputs.refreshed keys', told.step_eq.2⟩
  | faulted runs inside stops =>
    have told : (m.withInputs inputs).Stepped keys' _ _ :=
      .faulted runs inside (stops.transfer rfl rfl rfl rfl)
    exact ⟨told.step_eq.1, inputs.refreshed keys', told.step_eq.2⟩

theorem Agrees.step (agrees : m.Agrees m') (keys' : KeySource)
    (unsuspended : ∀ x, m.state ≠ .waitingForKey x) (blind : Moment.Blind ⟨m, keys⟩) :
    (m'.step keys').result = (m.step keys).result
      ∧ (m.step keys).machine.Agrees (m'.step keys').machine := by
  obtain ⟨inputs, rfl⟩ := agrees_iff.mp agrees
  obtain ⟨result, left⟩ := step_withInputs inputs keys' unsuspended blind
  exact ⟨result, agrees_iff.mpr left⟩

theorem step_unsuspended (unsuspended : ∀ x, m.state ≠ .waitingForKey x)
    (blind : Moment.Blind ⟨m, keys⟩) (x : UInt8) :
    (m.step keys).machine.state ≠ .waitingForKey x := by
  have step := m.stepped keys
  have decoded := decoded_blind blind
  generalize (m.step keys).result = result, (m.step keys).machine = machine at step decoded ⊢
  cases step with
  | halted | faulted => exact unsuspended x
  | waiting waits | received waits => exact absurd waits (unsuspended _)
  | executed =>
    rw [cycleTimers_state]
    rcases execute_state (m.refreshed keys) (Instruction.decode m.word) with same | ⟨y, awaits, _⟩
    · exact same ▸ unsuspended x
    · have reads := decoded rfl
      rw [awaits] at reads
      cases reads
  | ranOff | failed => exact RunState.noConfusion

/-! ## Sequences of steps -/

theorem Agrees.moments {ks ks' : List KeySource} (agrees : m.Agrees m')
    (same : ks.length = ks'.length) (unsuspended : ∀ x, m.state ≠ .waitingForKey x)
    (blind : ∀ moment ∈ m.moments (ks.map .step), moment.Blind) :
    List.Forall₂ (fun moment moment' =>
        moment'.result = moment.result ∧ moment.left.Agrees moment'.left)
      (m.moments (ks.map .step)) (m'.moments (ks'.map .step)) := by
  induction ks generalizing m m' ks' with
  | nil =>
    cases ks' with
    | nil => exact .nil
    | cons => cases same
  | cons keys ks ih =>
    cases ks' with
    | nil => cases same
    | cons keys' ks' =>
      have first : Moment.Blind ⟨m, keys⟩ := blind _ (List.mem_cons_self ..)
      obtain ⟨result, left⟩ := agrees.step keys' unsuspended first
      have unsuspended' := step_unsuspended unsuspended first
      refine .cons ⟨result, left⟩ (ih left (Nat.succ.inj same) unsuspended' ?_)
      intro moment member
      exact blind moment (List.mem_cons_of_mem _ member)

/-- A step replaces the whole keypad before anything looks at it. -/
theorem step_of_keypad (awake : m.state ≠ .halted) (keypad : Keypad) (keys : KeySource) :
    ({ m with keypad } : Machine).step keys = m.step keys := by
  have refreshed : ({ m with keypad } : Machine).refreshed keys = m.refreshed keys := by
    simp only [Machine.refreshed, refresh_eq_ofFn]
  rw [step, if_neg awake, step, if_neg awake]
  exact congrArg (fun n : Machine => haltOnError n.cycle) refreshed

theorem outcomes_of_keypad (awake : m.state ≠ .halted) (keypad : Keypad) (ks : List KeySource) :
    (({ m with keypad } : Machine).moments (ks.map .step)).map Moment.outcome =
      (m.moments (ks.map .step)).map Moment.outcome := by
  cases ks with
  | nil => rfl
  | cons keys ks =>
    -- from the first step on both machines are one and the same
    have first := step_of_keypad awake keypad keys
    show (_ :: (({ m with keypad } : Machine).step keys).machine.moments _).map _ = _
    rw [first]
    exact congrArg (· :: _) first

/-- Inputs that are not read do not matter.  Two machines that differ in nothing but keypad, random
    source, timers and timer mode, and do not wait for a key, take the same steps in front of any
    two sequences of keys, as long as the first one executes no instruction that looks at a key, a
    random byte or a timer: each step answers the same, and leaves two machines that again differ
    in nothing else.  What the keypad of a machine that is not halted holds at first does not
    matter for any of its steps, whatever it executes. -/
theorem unread_inputs_do_not_matter :
    (∀ m m' : Machine, m.Agrees m' → (∀ x, m.state ≠ .waitingForKey x) →
        ∀ ks ks' : List KeySource, ks.length = ks'.length →
          (∀ moment ∈ m.moments (ks.map .step), moment.Blind) →
          List.Forall₂ (fun moment moment' =>
              moment'.result = moment.result ∧ moment.left.Agrees moment'.left)
            (m.moments (ks.map .step)) (m'.moments (ks'.map .step)))
      ∧ ∀ m : Machine, m.state ≠ .halted → ∀ (keypad : Keypad) (ks : List KeySource),
          (({ m with keypad } : Machine).moments (ks.map .step)).map Moment.outcome =
            (m.moments (ks.map .step)).map Moment.outcome := by
  constructor
  · intro m m' agrees unsuspended ks ks' same blind
    exact agrees.moments same unsuspended blind
  · intro m awake keypad ks
    exact outcomes_of_keypad awake keypad ks

/-- A machine whose program sets both timers, draws, and returns from nowhere. -/
def secluded : Machine :=
  { fresh (.arithmetic 0 0) with
    memory := (⟨Vector.replicate 4096 0⟩ : Memory).store 0x200
      [0x60, 0x05, 0xF0, 0x15, 0xF0, 0x18, 0xD0, 0x02, 0x00, 0xEE] }

def allDown : Keypad :=
  ⟨Vector.replicate 16 true⟩

/-- The same machine with other inputs. -/
def beset : Machine :=
  { secluded with
    keypad := allDown
    random := .arithmetic 7 3
    delay := ⟨9⟩
    sound := ⟨1⟩
    timerMode := .realtime }

/-- Six steps with no key down, or with all of them. -/
def sixSteps (down : Bool) : List KeySource :=
  List.replicate 6 fun _ => down

theorem secluded_answers :
    (secluded.moments ((sixSteps false).map .step)).map (·.result)
      = [.ok (.executed (.loadByte 0 5)), .ok (.executed (.setDelay 0)),
        .ok (.executed (.setSound 0)), .ok (.executed (.draw 0 0 2)),
        .error (.error (.stackUnderflow 0x208)), .ok .halted] := by
  decide +kernel

theorem beset_goes_like_secluded :
    secluded.Agrees beset
      ∧ List.Forall₂ (fun moment moment' =>
          moment'.result = moment.result ∧ moment.left.Agrees moment'.left)
        (secluded.moments ((sixSteps false).map .step)) (beset.moments ((sixSteps true).map .step))
      ∧ (({ secluded with keypad := allDown } : Machine).moments
            ((sixSteps true).map .step)).map Moment.outcome
          = (secluded.moments ((sixSteps true).map .step)).map Moment.outcome := by
  have agrees : secluded.Agrees beset := ⟨rfl, rfl, rfl, rfl, rfl, rfl, rfl, rfl⟩
  have blind : ∀ moment ∈ secluded.moments ((sixSteps false).map .step), moment.Blind := by
    intro moment member ins executed
    have listed := List.mem_map_of_mem (f := (·.result)) member
    rw [secluded_answers, executed] at listed
    simp only [List.mem_cons, List.not_mem_nil, or_false, Except.ok.injEq, Step.executed.injEq,
      reduceCtorEq, or_self] at listed
    rcases listed with rfl | rfl | rfl | rfl <;> rfl
  obtain ⟨runs, leftovers⟩ := unread_inputs_do_not_matter
  exact ⟨agrees, runs _ _ agrees (fun _ => RunState.noConfusion) _ _ rfl blind,
    leftovers secluded RunState.noConfusion allDown _⟩

end Machine

end Chip8
