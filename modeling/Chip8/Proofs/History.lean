import Chip8.Proofs.Runs

/-! # Histories of a machine

A machine is driven by operations in any order, and a history is a list of them.  Whatever an
operation does apart from taking steps is small; `after_composes` is the one induction over
histories, and asks only for single steps, for the operations without steps, and for a way to put
two histories together.
-/

namespace Chip8

/-- A step being taken: the machine in front of it and the keys that are down. -/
structure Moment where
  machine : Machine
  keys : KeySource

namespace Moment

def left (moment : Moment) : Machine :=
  (moment.machine.step moment.keys).machine

def result (moment : Moment) : Except Stop Step :=
  (moment.machine.step moment.keys).result

/-- Where the step goes, if it executes a jump or a call. -/
def target (moment : Moment) : Option UInt16 :=
  match (moment.machine.step moment.keys).result with
  | .ok (.executed ins) => moment.machine.aim ins
  | _ => none

end Moment

/-- What a host can do to a machine. -/
inductive Operation where
  | step (keys : KeySource)
  | run (cycles : Nat) (keys : KeySource)
  | tickTimers
  | takeFrame
  | setTimerMode (mode : TimerMode)
  /-- A program that does not fit leaves the machine as it is. -/
  | loadRom (rom : List UInt8)
  /-- An instruction of the host's own, which is not fetched and does not move the program
      counter. -/
  | execute (ins : Instruction)

/-- The steps of a run, in order. -/
def Machine.runMoments (m : Machine) (keys : KeySource) : Nat → List Moment
  | 0 => []
  | cycles + 1 =>
    ⟨m, keys⟩ ::
      match (m.step keys).result with
      | .error _ | .ok .halted => []
      | .ok _ => (m.step keys).machine.runMoments keys cycles

namespace Operation

/-- The operations that drive a loaded program. -/
def Driving : Operation → Prop
  | .loadRom _ | .execute _ => False
  | _ => True

/-- The operations that take no step. -/
def Stepless : Operation → Prop
  | .step _ | .run .. => False
  | _ => True

def apply : Operation → Machine → Machine
  | .step keys, m => (m.step keys).machine
  | .run cycles keys, m => (m.run cycles keys).machine
  | .tickTimers, m => m.tickTimers.1
  | .takeFrame, m => m.takeFrame.2
  | .setTimerMode mode, m => m.setTimerMode mode
  | .loadRom rom, m =>
    match m.loadRom rom with
    | .ok (loaded, _) => loaded
    | .error _ => m
  | .execute ins, m => (m.execute ins).machine

def moments : Operation → Machine → List Moment
  | .step keys, m => [⟨m, keys⟩]
  | .run cycles keys, m => m.runMoments keys cycles
  | _, _ => []

end Operation

namespace Machine

def after (m : Machine) : List Operation → Machine
  | [] => m
  | op :: ops => (op.apply m).after ops

def moments (m : Machine) : List Operation → List Moment
  | [] => []
  | op :: ops => op.moments m ++ (op.apply m).moments ops

theorem after_append (m : Machine) (ops ops' : List Operation) :
    m.after (ops ++ ops') = (m.after ops).after ops' := by
  induction ops generalizing m with
  | nil => rfl
  | cons op ops ih => exact ih (op.apply m)

theorem moments_append (m : Machine) (ops ops' : List Operation) :
    m.moments (ops ++ ops') = m.moments ops ++ (m.after ops).moments ops' := by
  induction ops generalizing m with
  | nil => rfl
  | cons op ops ih =>
    show op.moments m ++ (op.apply m).moments (ops ++ ops') = _
    rw [ih, ← List.append_assoc]
    rfl

theorem after_snoc (m : Machine) (ks : List KeySource) (keys : KeySource) :
    m.after ((ks ++ [keys]).map .step) = ((m.after (ks.map .step)).step keys).machine := by
  rw [List.map_append, after_append]
  rfl

theorem moments_snoc (m : Machine) (ks : List KeySource) (keys : KeySource) :
    m.moments ((ks ++ [keys]).map .step)
      = m.moments (ks.map .step) ++ [⟨m.after (ks.map .step), keys⟩] := by
  rw [List.map_append, moments_append]
  rfl

/-! ## What a history keeps -/

/-- The operations that drive a program and take no step leave what a machine is made of alone,
    apart from its timers, its timer mode and its redraw flag. -/
theorem apply_of_stepless {op : Operation} (driving : op.Driving) (stepless : op.Stepless)
    (m : Machine) : ∃ delay sound timerMode redraw,
      op.apply m = { m with delay, sound, timerMode, redraw } := by
  cases op with
  | tickTimers => exact ⟨_, _, _, _, rfl⟩
  | setTimerMode mode => exact ⟨_, _, _, _, rfl⟩
  | takeFrame =>
    show ∃ _ _ _ _, m.takeFrame.2 = _
    unfold takeFrame
    split <;> exact ⟨_, _, _, _, rfl⟩
  | loadRom | execute => exact False.elim driving
  | step | run => exact False.elim stepless

theorem loadRom_fits {m : Machine} {rom : List UInt8} (fits : rom.length ≤ Memory.maxRomSize) :
    m.loadRom rom = .ok ({ m with memory := m.memory.store Memory.programStart.toNat rom },
      [.romLoaded rom.length]) := by
  rw [loadRom, Memory.loadRom, if_neg (Nat.not_lt_of_le fits)]
  rfl

theorem machine_of_loadRom {m loaded : Machine} {rom : List UInt8} {notices : List Notice}
    (went : m.loadRom rom = .ok (loaded, notices)) : ∃ memory, loaded = { m with memory } := by
  unfold loadRom at went
  cases stored : m.memory.loadRom rom with
  | error cause =>
    rw [stored] at went
    cases went
  | ok memory =>
    rw [stored] at went
    cases went
    exact ⟨memory, rfl⟩

section

variable {R : Machine → List Moment → Machine → Prop}

theorem run_composes (nothing : ∀ m, R m [] m)
    (steps : ∀ moment : Moment, R moment.machine [moment] moment.left)
    (append : ∀ {m ms m' ms' m''}, R m ms m' → R m' ms' m'' → R m (ms ++ ms') m'')
    (m : Machine) (keys : KeySource) (n : Nat) :
    R m (m.runMoments keys n) (m.run n keys).machine := by
  -- a run goes on to another step exactly when its list of steps does
  induction n generalizing m with
  | zero => exact nothing m
  | succ n ih =>
    have first : R m [⟨m, keys⟩] (m.step keys).machine := steps ⟨m, keys⟩
    simp only [runMoments]
    cases done : (m.step keys).result with
    | error cause =>
      rw [(run_of_error n done).2]
      exact first
    | ok s =>
      by_cases halted : s = .halted
      · rw [halted] at done ⊢
        rw [(run_of_halted n done).2]
        exact first
      · rw [(run_of_ok n done halted).2]
        cases s with
        | halted => contradiction
        | executed | unknown | waiting | keyReceived => exact append first (ih _)

/-- What holds of the steps and of the operations without steps, and goes over from the parts of a
    history to the whole, holds of every history: `R m ms m'` speaks of a history that leads from
    `m` to `m'` by way of the steps `ms`. -/
theorem after_composes (nothing : ∀ m, R m [] m)
    (steps : ∀ moment : Moment, R moment.machine [moment] moment.left)
    (append : ∀ {m ms m' ms' m''}, R m ms m' → R m' ms' m'' → R m (ms ++ ms') m'')
    {ops : List Operation} (others : ∀ op ∈ ops, op.Stepless → ∀ m, R m [] (op.apply m))
    (m : Machine) : R m (m.moments ops) (m.after ops) := by
  induction ops generalizing m with
  | nil => exact nothing m
  | cons op ops ih =>
    have rest := ih (fun op member => others op (List.mem_cons_of_mem _ member)) (op.apply m)
    refine append ?_ rest
    have alone := others op (List.mem_cons_self ..)
    cases op with
    | step keys => exact steps ⟨m, keys⟩
    | run cycles keys => exact run_composes nothing steps append m keys cycles
    | tickTimers | takeFrame | setTimerMode | loadRom | execute => exact alone trivial m

variable {P : Machine → Prop} {Q : Moment → Prop}

/-- What the steps of a program keep holds for as long as the program is driven, unless it hangs on
    the timers, their mode or the redraw flag. -/
theorem after_preserves (steps : ∀ moment, Q moment → P moment.machine → P moment.left)
    (untimed : ∀ m delay sound timerMode redraw, P m →
      P { m with delay, sound, timerMode, redraw })
    {m : Machine} {ops : List Operation} (driving : ∀ op ∈ ops, op.Driving)
    (allowed : ∀ moment ∈ m.moments ops, Q moment) (start : P m) : P (m.after ops) := by
  refine after_composes (R := fun m ms m' => (∀ moment ∈ ms, Q moment) → P m → P m')
    ?_ ?_ ?_ ?_ m allowed start
  · intro _ _ kept
    exact kept
  · intro moment allowed kept
    exact steps moment (allowed _ (List.mem_singleton_self _)) kept
  · intro _ _ _ _ _ first second allowed kept
    have early := first (fun moment member => allowed moment (List.mem_append_left _ member)) kept
    exact second (fun moment member => allowed moment (List.mem_append_right _ member)) early
  · intro op member stepless m _ kept
    obtain ⟨_, _, _, _, left⟩ := apply_of_stepless (driving op member) stepless m
    rw [left]
    exact untimed m _ _ _ _ kept

end

end Machine

end Chip8
