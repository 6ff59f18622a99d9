import Chip8.Proofs.Halting

/-! # What a run answers and logs

A run fails if its last step does, and the steps before that give values.  A run of a machine that
is not halted logs what its steps log and nothing else; that it met a stopped machine is the one
record that no step makes.
-/

namespace Chip8

/-- The records of the step. -/
def Moment.notices (moment : Moment) : List Notice :=
  (moment.machine.step moment.keys).log

namespace Machine

variable {m : Machine} {keys : KeySource} {cause : Stop} {n : Nat}

/-! ## The record that no step makes -/

theorem execute_log (m : Machine) (ins : Instruction) :
    .machineHalted ∉ (m.execute ins).log := by
  have ended := m.ends ins
  generalize m.execute ins = o at ended ⊢
  cases ended with
  | other succeeds =>
    cases ins with
    | sys | awaitKey | unknown =>
      exact List.not_mem_cons_of_ne_of_not_mem Notice.noConfusion List.not_mem_nil
    | _ => first | exact False.elim succeeds | exact List.not_mem_nil
  | _ => exact List.not_mem_nil

theorem tickTimers_log (m : Machine) : .machineHalted ∉ m.tickTimers.2 := by
  unfold tickTimers
  dsimp only
  split <;> simp

theorem finishing_log (m : Machine) (s : Step) : .machineHalted ∉ (m.finishing s).log := by
  show .machineHalted ∉ m.cycleTimers.2
  unfold cycleTimers
  split
  next => exact m.tickTimers_log
  next => exact List.not_mem_nil

theorem awaitCycle_log (m : Machine) (x : UInt8) : .machineHalted ∉ (m.awaitCycle x).log := by
  unfold awaitCycle
  split
  next => exact finishing_log _ _
  next => exact List.not_mem_cons_of_ne_of_not_mem Notice.noConfusion (finishing_log _ _)

theorem executeCycle_log (m : Machine) (ins : Instruction) :
    .machineHalted ∉ (m.executeCycle ins).log := by
  have executed := m.execute_log ins
  unfold executeCycle
  dsimp only
  split
  next => exact executed
  next =>
    intro member
    rcases List.mem_append.mp member with member | member
    · exact executed member
    · exact finishing_log _ _ member

theorem cycle_log (m : Machine) : .machineHalted ∉ m.cycle.log := by
  unfold cycle fetchCycle
  split
  next => exact m.awaitCycle_log _
  next =>
    split
    next => exact List.not_mem_nil
    next =>
      split
      next => exact List.not_mem_nil
      next => exact List.not_mem_cons_of_ne_of_not_mem Notice.noConfusion (m.executeCycle_log _)

theorem step_log (m : Machine) (keys : KeySource) : .machineHalted ∉ (m.step keys).log := by
  have cycled := (m.refreshed keys).cycle_log
  unfold step haltOnError
  split
  next => exact List.not_mem_nil
  next =>
    split
    next =>
      intro member
      rcases List.mem_append.mp member with member | member
      · exact cycled member
      · exact absurd (List.mem_singleton.mp member) Notice.noConfusion
    next => exact cycled

/-! ## The answers of a run -/

theorem answered_of_run_ok (done : (m.run n keys).result = .ok ()) :
    ∀ moment ∈ m.runMoments keys n, ∃ s, moment.result = .ok s := by
  induction n generalizing m with
  | zero =>
    intro moment member
    cases member
  | succ n ih =>
    intro moment member
    simp only [runMoments, List.mem_cons] at member
    cases first : (m.step keys).result with
    | error cause =>
      rw [(run_of_error n first).1] at done
      cases done
    | ok s =>
      rw [first] at member
      rcases member with rfl | member
      · exact ⟨s, first⟩
      · cases s with
        | halted => cases member
        | executed | unknown | waiting | keyReceived =>
          rw [(run_of_ok n first Step.noConfusion).1] at done
          exact ih done moment member

theorem answered_of_run_error (stopped : (m.run n keys).result = .error cause) :
    ∃ before last, m.runMoments keys n = before ++ [last]
      ∧ (∀ moment ∈ before, ∃ s, moment.result = .ok s) ∧ last.result = .error cause := by
  induction n generalizing m with
  | zero =>
    rw [(m.run_zero keys).1] at stopped
    cases stopped
  | succ n ih =>
    simp only [runMoments]
    cases first : (m.step keys).result with
    | error cause' =>
      rw [(run_of_error n first).1] at stopped
      cases stopped
      exact ⟨[], ⟨m, keys⟩, rfl, fun _ member => absurd member List.not_mem_nil, first⟩
    | ok s =>
      cases s with
      | halted =>
        rw [(run_of_halted n first).1] at stopped
        cases stopped
      | executed | unknown | waiting | keyReceived =>
        rw [(run_of_ok n first Step.noConfusion).1] at stopped
        obtain ⟨before, last, moments, done, failed⟩ := ih stopped
        refine ⟨⟨m, keys⟩ :: before, last, congrArg (List.cons _) moments, ?_, failed⟩
        rintro moment (_ | ⟨_, member⟩)
        · exact ⟨_, first⟩
        · exact done moment member

/-! ## The records of a run -/

theorem runFrom_notices (awake : m.state ≠ .halted) (earlier : List Notice) (n : Nat) :
    (m.runFrom keys earlier n).log
      = earlier.reverse ++ (m.runMoments keys n).flatMap Moment.notices := by
  induction n generalizing m earlier with
  | zero => simp [runFrom, runMoments]
  | succ n ih =>
    simp only [runFrom, runMoments, List.flatMap_cons]
    have notices : Moment.notices ⟨m, keys⟩ = (m.step keys).log := rfl
    rw [notices]
    cases done : (m.step keys).result with
    | error cause => simp
    | ok s =>
      cases s with
      | halted => exact absurd (halted_of_answered done) awake
      | executed | unknown | waiting | keyReceived =>
        simp only
        rw [ih (awake_of_ok awake done)]
        simp

theorem run_notices (awake : m.state ≠ .halted) (keys : KeySource) (n : Nat) :
    (m.run n keys).log = (m.runMoments keys n).flatMap Moment.notices :=
  runFrom_notices awake [] n

end Machine

end Chip8
