import Chip8.Proofs.Batching
import Chip8.Proofs.Faultless
import Chip8.Proofs.History
import Mathlib.Control.Monad.Basic

/-! # Halting

A machine halts at a step that fails and at nothing else, and halting is final for a host that
leaves the instructions to the program: every later step finds the machine halted and does nothing.
The only way back is an instruction of the host's own that waits for a key.

The non-trivial ingredient is `Halting`, which says what the steps of a history have to do with its
two ends and goes over from two histories to the one they make up.
-/

namespace Chip8

def Moment.failed (moment : Moment) : Bool :=
  match moment.result with
  | .error _ => true
  | .ok _ => false

theorem Moment.failed_iff {moment : Moment} :
    moment.failed = true ↔ ∃ cause, moment.result = .error cause := by
  unfold failed
  cases moment.result with
  | error cause => simp
  | ok s => simp

/-- The operations of a host that leaves the instructions to the program. -/
def Operation.Ordinary : Operation → Prop
  | .execute _ => False
  | _ => True

theorem Operation.ordinary_or_execute (op : Operation) :
    op.Ordinary ∨ ∃ ins, op = .execute ins := by
  cases op with
  | execute ins => exact .inr ⟨ins, rfl⟩
  | _ => exact .inl trivial

namespace Machine

variable {m m' m'' : Machine} {keys : KeySource} {ms ms' : List Moment} {op : Operation} {s : Step}

/-! ## Steps -/

theorem cycleTimers_state (m : Machine) : m.cycleTimers.1.state = m.state := by
  obtain ⟨_, _, ticked⟩ := m.cycleTimers_machine
  rw [ticked]

theorem awake_of_ok (awake : m.state ≠ .halted) (done : (m.step keys).result = .ok s) :
    (m.step keys).machine.state ≠ .halted := by
  have step := m.stepped keys
  generalize (m.step keys).result = result, (m.step keys).machine = machine at done step ⊢
  cases step with
  | halted halted => exact absurd halted awake
  | waiting =>
    rw [cycleTimers_state]
    exact awake
  | received =>
    rw [cycleTimers_state]
    exact RunState.noConfusion
  | executed =>
    rw [cycleTimers_state]
    rcases execute_state (m.refreshed keys) (Instruction.decode m.word) with same | ⟨x, _, left⟩
    · exact same ▸ awake
    · rw [left]
      exact RunState.noConfusion
  | ranOff | failed | faulted => cases done

theorem failed_iff_halts (bounded : m.stack.depth ≤ CallStack.capacity) :
    Moment.failed ⟨m, keys⟩ = true ↔ m.state ≠ .halted ∧ (m.step keys).machine.state = .halted := by
  rw [Moment.failed_iff]
  constructor
  · rintro ⟨cause, failed⟩
    change (m.step keys).result = .error cause at failed
    -- a fault would leave the machine as it is, but a bounded stack lets none happen
    cases cause with
    | error cause =>
      obtain ⟨runs, _⟩ := step_error_iff.mp failed
      refine ⟨by simp [runs], ?_⟩
      rw [machine_of_step_error failed]
    | fault cause => exact absurd failed (step_faultless bounded)
  · rintro ⟨awake, halted⟩
    cases done : (m.step keys).result with
    | error cause => exact ⟨cause, done⟩
    | ok s => exact absurd halted (awake_of_ok awake done)

/-! ## Histories -/

theorem apply_state (ordinary : op.Ordinary) (stepless : op.Stepless) (m : Machine) :
    (op.apply m).state = m.state ∧ (op.apply m).stack = m.stack := by
  cases op with
  | step | run => exact False.elim stepless
  | execute => exact False.elim ordinary
  | loadRom rom =>
    simp only [Operation.apply]
    split
    next loaded =>
      obtain ⟨memory, rfl⟩ := machine_of_loadRom loaded
      exact ⟨rfl, rfl⟩
    next => exact ⟨rfl, rfl⟩
  | tickTimers | setTimerMode => exact ⟨rfl, rfl⟩
  | takeFrame =>
    have driving : Operation.Driving .takeFrame := trivial
    obtain ⟨_, _, _, _, left⟩ := apply_of_stepless driving stepless m
    rw [left]
    exact ⟨rfl, rfl⟩

/-- What the steps of a history have to do with halting; it leads from `m` to `m'` by way of the
    steps `ms`. -/
structure Halting (m : Machine) (ms : List Moment) (m' : Machine) : Prop where
  stays : m.state = .halted → m'.state = .halted ∧ ∀ moment ∈ ms, moment.machine.state = .halted
  halts : m.state ≠ .halted → (m'.state = .halted ↔ ∃ moment ∈ ms, moment.failed = true)
  fails : ∀ moment ∈ ms, moment.failed = true ↔
    moment.machine.state ≠ .halted ∧ moment.left.state = .halted
  /-- After a step that fails every step finds the machine halted. -/
  once : ms.Pairwise fun earlier later => earlier.failed = true → later.machine.state = .halted

theorem Halting.nil (same : m'.state = m.state) : Halting m [] m' where
  stays halted := ⟨same.trans halted, fun _ member => by cases member⟩
  halts awake := by simp [same, awake]
  fails _ member := by cases member
  once := .nil

theorem Halting.step (bounded : m.stack.depth ≤ CallStack.capacity) (keys : KeySource) :
    Halting m [⟨m, keys⟩] (m.step keys).machine where
  stays halted := by
    constructor
    · rw [step_of_halted halted]
      exact halted
    · intro moment member
      rw [List.mem_singleton.mp member]
      exact halted
  halts awake := by
    simp only [List.mem_singleton, exists_eq_left]
    rw [failed_iff_halts bounded]
    simp [awake]
  fails moment member := by
    rw [List.mem_singleton.mp member]
    exact failed_iff_halts bounded
  once := List.pairwise_singleton ..

theorem Halting.append (first : Halting m ms m') (second : Halting m' ms' m'') :
    Halting m (ms ++ ms') m'' where
  stays halted := by
    obtain ⟨between, early⟩ := first.stays halted
    obtain ⟨last, late⟩ := second.stays between
    refine ⟨last, ?_⟩
    intro moment member
    rcases List.mem_append.mp member with member | member
    · exact early moment member
    · exact late moment member
  halts awake := by
    simp only [List.mem_append, or_and_right, exists_or]
    by_cases between : m'.state = .halted
    · exact iff_of_true (second.stays between).1 (.inl ((first.halts awake).mp between))
    · have none : ¬ ∃ moment ∈ ms, moment.failed = true := mt (first.halts awake).mpr between
      rw [second.halts between, or_iff_right none]
  fails moment member := by
    rcases List.mem_append.mp member with member | member
    · exact first.fails moment member
    · exact second.fails moment member
  once := by
    refine List.pairwise_append.mpr ⟨first.once, second.once, ?_⟩
    intro earlier member later member' failed
    -- a failure in the first history lasts to its end
    have awake : m.state ≠ .halted := by
      intro halted
      exact ((first.fails _ member).mp failed).1 ((first.stays halted).2 _ member)
    have between := (first.halts awake).mpr ⟨earlier, member, failed⟩
    exact (second.stays between).2 later member'

theorem after_halting {ops : List Operation} (ordinary : ∀ op ∈ ops, op.Ordinary)
    (bounded : m.stack.depth ≤ CallStack.capacity) :
    (m.after ops).stack.depth ≤ CallStack.capacity ∧ Halting m (m.moments ops) (m.after ops) := by
  refine after_composes (R := fun m ms m' => m.stack.depth ≤ CallStack.capacity →
    m'.stack.depth ≤ CallStack.capacity ∧ Halting m ms m') ?_ ?_ ?_ ?_ m bounded
  · intro m bounded
    exact ⟨bounded, .nil rfl⟩
  · intro moment bounded
    exact ⟨step_bounded bounded, .step bounded moment.keys⟩
  · intro _ _ _ _ _ first second bounded
    obtain ⟨bounded, early⟩ := first bounded
    obtain ⟨bounded, late⟩ := second bounded
    exact ⟨bounded, early.append late⟩
  · intro op member stepless m bounded
    obtain ⟨state, stack⟩ := apply_state (ordinary op member) stepless m
    exact ⟨stack ▸ bounded, .nil state⟩

theorem Halting.countP_failed_le (halting : Halting m ms m') : ms.countP (·.failed) ≤ 1 := by
  obtain ⟨-, -, fails, once⟩ := halting
  induction ms with
  | nil => exact Nat.zero_le _
  | cons moment ms ih =>
    obtain ⟨first, rest⟩ := List.pairwise_cons.mp once
    rw [List.countP_cons]
    split
    next failed =>
      -- a later failure would start from a halted machine, and none does
      have none : ms.countP (·.failed) = 0 := by
        rw [List.countP_eq_zero]
        intro later member again
        exact ((fails later (List.mem_cons_of_mem _ member)).mp again).1 (first later member failed)
      omega
    next =>
      exact ih (fun later member => fails later (List.mem_cons_of_mem _ member)) rest

/-! ## Halted machines -/

theorem run_of_state_halted (halted : m.state = .halted) (n : Nat) :
    (m.run n keys).result = .ok () ∧ (m.run n keys).machine = m := by
  have idle : m.step keys = .done .halted m := step_of_halted halted
  cases n with
  | zero => exact m.run_zero keys
  | succ n =>
    obtain ⟨result, machine⟩ := run_of_halted n (congrArg Outcome.result idle)
    exact ⟨result, machine.trans (congrArg Outcome.machine idle)⟩

theorem apply_halted (ordinary : op.Ordinary) (halted : m.state = .halted) :
    (op.apply m).state = .halted := by
  cases op with
  | step keys =>
    have idle : m.step keys = .done .halted m := step_of_halted halted
    exact (congrArg (·.machine.state) idle).trans halted
  | run n keys => exact (congrArg state (run_of_state_halted halted n).2).trans halted
  | execute => exact False.elim ordinary
  | _ => exact (apply_state ordinary trivial m).1.trans halted

/-- Waiting for a key is the one instruction, and the one operation, that ends a halt. -/
theorem apply_awake_iff (halted : m.state = .halted) :
    (op.apply m).state ≠ .halted ↔ ∃ x, op = .execute (.awaitKey x) := by
  constructor
  · intro awake
    rcases op.ordinary_or_execute with ordinary | ⟨ins, rfl⟩
    · exact absurd (apply_halted ordinary halted) awake
    · rcases execute_state m ins with same | ⟨x, rfl, _⟩
      · exact absurd (same.trans halted) awake
      · exact ⟨x, rfl⟩
  · rintro ⟨x, rfl⟩
    exact RunState.noConfusion

theorem loadRomFile_state {read : String → Except ReadError (List UInt8)} {path : String}
    {loaded : Machine} {notices : List Notice}
    (went : m.loadRomFile read path = .ok (loaded, notices)) : loaded.state = m.state := by
  unfold loadRomFile at went
  split at went
  next => cases went
  next =>
    obtain ⟨memory, rfl⟩ := machine_of_loadRom went
    rfl

/-! ## Halting is final -/

/-- However a fresh machine is driven, it halts at the steps that fail and nowhere else, and at most
    one step of the history fails.  Once it is halted every later step answers that and changes
    nothing, and no later run fails.  Of all operations on a halted machine, those on files and the
    instructions of a host's own included, only waiting for a key ends its halt. -/
theorem halting_is_final (random : RandomSource) (ops : List Operation)
    (ordinary : ∀ op ∈ ops, op.Ordinary) {m : Machine} (reached : (fresh random).after ops = m) :
    (∀ moment ∈ (fresh random).moments ops, moment.failed = true ↔
        moment.machine.state ≠ .halted ∧ moment.left.state = .halted)
      ∧ (m.state = .halted ↔ ∃ moment ∈ (fresh random).moments ops, moment.failed = true)
      ∧ ((fresh random).moments ops).countP (·.failed) ≤ 1
      ∧ (m.state = .halted → ∀ later, (∀ op ∈ later, op.Ordinary) →
          (m.after later).state = .halted
            ∧ (∀ moment ∈ m.moments later,
                moment.result = .ok .halted ∧ moment.left = moment.machine)
            ∧ ∀ n keys, ((m.after later).run n keys).result = .ok ()
                ∧ ((m.after later).run n keys).machine = m.after later)
      ∧ ∀ halted : Machine, halted.state = .halted →
          (∀ op : Operation, (op.apply halted).state ≠ .halted ↔ ∃ x, op = .execute (.awaitKey x))
            ∧ (∀ x, (halted.execute (.awaitKey x)).machine
                = { halted with state := .waitingForKey x })
            ∧ ∀ read path loaded notices,
                halted.loadRomFile read path = .ok (loaded, notices) → loaded.state = .halted := by
  have empty : (fresh random).stack.depth ≤ CallStack.capacity := Nat.zero_le _
  have awake : (fresh random).state ≠ .halted := RunState.noConfusion
  -- a fresh machine is neither halted nor does its stack hold anything
  obtain ⟨bounded, halting⟩ := after_halting ordinary empty
  rw [reached] at bounded halting
  refine ⟨halting.fails, halting.halts awake, halting.countP_failed_le, ?_, ?_⟩
  · intro halted later ordinary
    obtain ⟨_, stopped⟩ := after_halting ordinary bounded
    obtain ⟨last, found⟩ := stopped.stays halted
    refine ⟨last, ?_, fun n keys => run_of_state_halted last n⟩
    intro moment member
    have idle : moment.machine.step moment.keys = .done .halted moment.machine :=
      step_of_halted (found moment member)
    exact ⟨congrArg Outcome.result idle, congrArg Outcome.machine idle⟩
  · intro m halted
    refine ⟨fun op => apply_awake_iff halted, fun x => rfl, ?_⟩
    intro read path loaded notices went
    exact (loadRomFile_state went).trans halted

/-- A program that loads a register and returns from nowhere is loaded and run. -/
def mishap : List Operation :=
  [.loadRom [0x60, 0x01, 0x00, 0xEE], .tickTimers, .run 5 fun _ => true]

/-- The host goes on as if nothing had happened, with another program. -/
def carryOn : List Operation :=
  [.step fun _ => false, .loadRom [0x12, 0x00], .run 3 fun _ => true]

theorem mishap_is_final :
    ((fresh (.arithmetic 0 0)).moments mishap).map (·.failed) = [false, true]
      ∧ ((fresh (.arithmetic 0 0)).moments mishap).countP (·.failed) ≤ 1
      ∧ (∀ moment ∈ ((fresh (.arithmetic 0 0)).after mishap).moments carryOn,
          moment.result = .ok .halted ∧ moment.left = moment.machine)
      ∧ ((((fresh (.arithmetic 0 0)).after mishap).after carryOn).run 1000 fun _ => true).result
          = .ok ()
      ∧ ((Operation.execute (.awaitKey 3)).apply ((fresh (.arithmetic 0 0)).after mishap)).state
          ≠ .halted := by
  have goes : ((fresh (.arithmetic 0 0)).after mishap).state = .halted
      ∧ ((fresh (.arithmetic 0 0)).moments mishap).map (·.failed) = [false, true] := by
    decide +kernel
  obtain ⟨halted, failures⟩ := goes
  have before : ∀ op ∈ mishap, op.Ordinary := by simp [mishap, Operation.Ordinary]
  have behind : ∀ op ∈ carryOn, op.Ordinary := by simp [carryOn, Operation.Ordinary]
  obtain ⟨_, _, once, later, escape⟩ := halting_is_final (.arithmetic 0 0) mishap before rfl
  obtain ⟨_, idle, runs⟩ := later halted carryOn behind
  obtain ⟨escapes, _⟩ := escape _ halted
  exact ⟨failures, once, idle, (runs 1000 _).1, (escapes _).mpr ⟨3, rfl⟩⟩

end Machine

end Chip8
