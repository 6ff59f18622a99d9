import Chip8.Proofs.Failure
import Chip8.Proofs.Runs
import Mathlib.Control.Monad.Basic

/-! # Running in batches

Nobody can tell a run from its steps taken one by one, or from two shorter runs.  A run ends early
when the machine stops, while the steps go on.

The non-trivial ingredient is that the steps then go on without effect: `step_settles` says that
after a step without a value another one with the same keys changes nothing, neither the keypad nor
the timers, and `machine_of_halted` says so of a step that finds the machine halted.
-/

namespace Chip8

namespace Machine

/-- The machine after a number of steps with the same keys, whatever they answer. -/
def afterSteps (m : Machine) (keys : KeySource) : Nat → Machine
  | 0 => m
  | n + 1 => (m.step keys).machine.afterSteps keys n

/-- What step number `i` answers, counted from 0. -/
def answer (m : Machine) (keys : KeySource) (i : Nat) : Except Stop Step :=
  ((m.afterSteps keys i).step keys).result

variable {m : Machine} {keys : KeySource} {cause : Stop} {e e' : MachineError} {f : Fault}
  {i j n : Nat}

theorem afterSteps_add (m : Machine) (keys : KeySource) (a b : Nat) :
    m.afterSteps keys (a + b) = (m.afterSteps keys a).afterSteps keys b := by
  induction a generalizing m with
  | zero => rw [Nat.zero_add, afterSteps]
  | succ a ih =>
    rw [Nat.succ_add, afterSteps, ih, afterSteps]

theorem afterSteps_succ (m : Machine) (keys : KeySource) (n : Nat) :
    m.afterSteps keys (n + 1) = ((m.afterSteps keys n).step keys).machine :=
  afterSteps_add m keys n 1

theorem answer_add (m : Machine) (keys : KeySource) (a i : Nat) :
    m.answer keys (a + i) = (m.afterSteps keys a).answer keys i := by
  rw [answer, afterSteps_add, answer]

/-! ## Steps without effect -/

theorem afterSteps_of_settled (settled : (m.step keys).machine = m) (n : Nat) :
    m.afterSteps keys n = m := by
  induction n with
  | zero => rfl
  | succ n ih => rw [afterSteps, settled, ih]

theorem answer_of_settled (settled : (m.step keys).machine = m) (i : Nat) :
    m.answer keys i = (m.step keys).result := by
  rw [answer, afterSteps_of_settled settled]

theorem halted_of_answered (answered : (m.step keys).result = .ok .halted) : m.state = .halted := by
  have step := m.stepped keys
  generalize (m.step keys).result = result, (m.step keys).machine = machine at answered step
  cases step with
  | halted halted => exact halted
  | executed =>
    -- no instruction makes a step answer that the machine is halted
    generalize Instruction.decode m.word = ins at answered
    cases ins <;> cases answered
  | _ => cases answered

theorem machine_of_halted (answered : (m.step keys).result = .ok .halted) :
    (m.step keys).machine = m := by
  rw [step_of_halted (halted_of_answered answered)]
  rfl

theorem refreshed_twice (m : Machine) (keys : KeySource) :
    (m.refreshed keys).refreshed keys = m.refreshed keys := by
  simp only [refreshed, refresh_eq_ofFn]

theorem machine_of_step_fault (faulty : (m.step keys).result = .error (.fault f)) :
    (m.step keys).machine = m.refreshed keys := by
  have step := m.stepped keys
  generalize (m.step keys).result = result, (m.step keys).machine = machine at faulty step ⊢
  cases step with
  | faulted => rfl
  | _ => cases faulty

/-- After a fatal condition a step finds the machine halted. -/
theorem step_after_failure (failed : (m.step keys).result = .error (.error e)) :
    (m.step keys).machine.step keys = .done .halted (m.step keys).machine := by
  apply step_of_halted
  rw [machine_of_step_error failed]

/-- A fault comes again, and nothing is left to refresh then. -/
theorem step_after_fault (faulty : (m.step keys).result = .error (.fault f)) :
    ((m.step keys).machine.step keys).result = .error (.fault f)
      ∧ ((m.step keys).machine.step keys).machine = (m.step keys).machine := by
  have again : ((m.refreshed keys).step keys).result = .error (.fault f) := by
    have step := m.stepped keys
    generalize (m.step keys).result = result, (m.step keys).machine = machine at faulty step
    cases step with
    | faulted runs inside stops =>
      cases faulty
      exact step_of_stops (m := m.refreshed keys) runs inside (stops_refreshed.mpr stops)
    | _ => cases faulty
  rw [machine_of_step_fault faulty]
  refine ⟨again, ?_⟩
  rw [machine_of_step_fault again, refreshed_twice]

/-- After a step without a value the next one changes nothing, and answers the same or that the
    machine is halted. -/
theorem step_settles (stopped : (m.step keys).result = .error cause) :
    ((m.step keys).machine.step keys).machine = (m.step keys).machine
      ∧ (((m.step keys).machine.step keys).result = .error cause
        ∨ ((m.step keys).machine.step keys).result = .ok .halted) := by
  cases cause with
  | error e =>
    rw [step_after_failure stopped]
    exact ⟨rfl, .inr rfl⟩
  | fault f =>
    obtain ⟨again, settled⟩ := step_after_fault stopped
    exact ⟨settled, .inl again⟩

theorem afterSteps_of_stopped (stopped : m.answer keys i = .error cause) (later : i < n) :
    m.afterSteps keys n = m.afterSteps keys (i + 1) := by
  obtain ⟨k, rfl⟩ : ∃ k, n = i + 1 + k := Nat.exists_eq_add_of_le later
  rw [afterSteps_add, afterSteps_succ]
  exact afterSteps_of_settled (step_settles stopped).1 k

theorem answer_of_failed (failed : m.answer keys i = .error (.error e)) (later : i < j) :
    m.answer keys j = .ok .halted := by
  rw [answer, afterSteps_of_stopped failed later, afterSteps_succ, step_after_failure failed]
  rfl

/-! ## Runs -/

theorem run_machine (m : Machine) (keys : KeySource) (n : Nat) :
    (m.run n keys).machine = m.afterSteps keys n := by
  induction n generalizing m with
  | zero => rfl
  | succ n ih =>
    rw [afterSteps]
    cases done : (m.step keys).result with
    | error cause => rw [(run_of_error n done).2, afterSteps_of_settled (step_settles done).1]
    | ok s =>
      by_cases halted : s = .halted
      · rw [halted] at done
        have left := machine_of_halted done
        rw [(run_of_halted n done).2, left, afterSteps_of_settled left]
      · rw [(run_of_ok n done halted).2, ih]

theorem run_error_iff (m : Machine) (keys : KeySource) (n : Nat) (cause : Stop) :
    (m.run n keys).result = .error cause ↔ ∃ i < n, m.answer keys i = .error cause := by
  induction n generalizing m with
  | zero =>
    rw [(m.run_zero keys).1]
    simp
  | succ n ih =>
    -- the first step, or one of the steps that follow from the machine it leaves
    have split : (∃ i < n + 1, m.answer keys i = .error cause) ↔
        (m.step keys).result = .error cause
          ∨ ∃ i < n, (m.step keys).machine.answer keys i = .error cause :=
      Nat.exists_lt_succ_left
    rw [split]
    cases done : (m.step keys).result with
    | error cause' =>
      simp only [(run_of_error n done).1, Except.error.injEq]
      constructor
      · exact .inl
      · rintro (first | ⟨i, _, later⟩)
        · exact first
        · obtain ⟨settled, again⟩ := step_settles done
          rw [answer_of_settled settled] at later
          rcases again with again | again
          · exact Except.error.inj (again.symm.trans later)
          · rw [again] at later
            cases later
    | ok s =>
      by_cases halted : s = .halted
      · rw [halted] at done ⊢
        have left := machine_of_halted done
        rw [(run_of_halted n done).1, left]
        simp [answer_of_settled left, done]
      · rw [(run_of_ok n done halted).1, ih]
        simp

theorem result_eq_of_error_iff {r r' : Except Stop Unit}
    (same : ∀ cause, r = .error cause ↔ r' = .error cause) : r = r' := by
  cases r with
  | error cause => exact ((same cause).mp rfl).symm
  | ok =>
    cases r' with
    | error cause => exact (same cause).mpr rfl
    | ok => rfl

theorem run_add_of_ok {a : Nat} (done : (m.run a keys).result = .ok ()) (b : Nat) :
    (m.run (a + b) keys).result = ((m.run a keys).machine.run b keys).result := by
  apply result_eq_of_error_iff
  intro cause
  rw [run_error_iff, run_error_iff, run_machine]
  constructor
  · rintro ⟨i, inside, failed⟩
    by_cases early : i < a
    · have stopped := (m.run_error_iff keys a cause).mpr ⟨i, early, failed⟩
      rw [done] at stopped
      cases stopped
    · obtain ⟨k, rfl⟩ := Nat.exists_eq_add_of_le (Nat.le_of_not_lt early)
      rw [answer_add] at failed
      exact ⟨k, by omega, failed⟩
  · rintro ⟨k, inside, failed⟩
    refine ⟨a + k, by omega, ?_⟩
    rw [answer_add]
    exact failed

theorem run_add_of_error {a : Nat} (stopped : (m.run a keys).result = .error cause) (b : Nat) :
    (m.run (a + b) keys).result = .error cause
      ∧ (m.run (a + b) keys).machine = (m.run a keys).machine := by
  obtain ⟨i, early, failed⟩ := (m.run_error_iff keys a cause).mp stopped
  have inside : i < a + b := by omega
  refine ⟨(m.run_error_iff keys (a + b) cause).mpr ⟨i, inside, failed⟩, ?_⟩
  rw [run_machine, run_machine, afterSteps_of_stopped failed inside,
    afterSteps_of_stopped failed early]

/-- A run leaves the machine that as many steps leave, and fails in the way in which one of them
    fails; at most one of them does.  So two runs in a row are one longer run, unless the first one
    fails, and then the longer run is that one. -/
theorem run_same_as_steps (m : Machine) (keys : KeySource) :
    (∀ n, (m.run n keys).machine = m.afterSteps keys n
        ∧ ∀ cause, (m.run n keys).result = .error cause ↔
            ∃ i < n, m.answer keys i = .error cause)
      ∧ (∀ i j e e', m.answer keys i = .error (.error e) → m.answer keys j = .error (.error e') →
          i = j)
      ∧ ∀ a b, ((m.run a keys).result = .ok () →
            (m.run (a + b) keys).result = ((m.run a keys).machine.run b keys).result
              ∧ (m.run (a + b) keys).machine = ((m.run a keys).machine.run b keys).machine)
          ∧ ∀ cause, (m.run a keys).result = .error cause →
              (m.run (a + b) keys).result = .error cause
                ∧ (m.run (a + b) keys).machine = (m.run a keys).machine := by
  refine ⟨?_, ?_, ?_⟩
  · intro n
    exact ⟨run_machine m keys n, run_error_iff m keys n⟩
  · intro i j e e' first second
    rcases Nat.lt_trichotomy i j with before | same | after
    · rw [answer_of_failed first before] at second
      cases second
    · exact same
    · rw [answer_of_failed second after] at first
      cases first
  · intro a b
    constructor
    · intro done
      refine ⟨run_add_of_ok done b, ?_⟩
      rw [run_machine, run_machine, run_machine, afterSteps_add]
    · intro cause stopped
      exact run_add_of_error stopped b

/-- A machine whose program loads a register and returns from nowhere. -/
def stumbling : Machine :=
  { fresh (.arithmetic 0 0) with
    memory := (⟨Vector.replicate 4096 0⟩ : Memory).store 0x200 [0x60, 0x01, 0x00, 0xEE] }

theorem run_same_as_steps_stumbling :
    (stumbling.run 1 fun _ => true).result = .ok ()
      ∧ (stumbling.run 1001 fun _ => true).result
          = ((stumbling.run 1 fun _ => true).machine.run 1000 fun _ => true).result
      ∧ (stumbling.run 2 fun _ => true).result = .error (.error (.stackUnderflow 0x202))
      ∧ (stumbling.run 1002 fun _ => true).result = .error (.error (.stackUnderflow 0x202))
      ∧ (stumbling.run 1002 fun _ => true).machine = (stumbling.run 2 fun _ => true).machine
      ∧ ∀ j, stumbling.answer (fun _ => true) j = .error (.error (.stackUnderflow 0x202)) →
          1 = j := by
  have goes : (stumbling.run 1 fun _ => true).result = .ok ()
      ∧ stumbling.answer (fun _ => true) 1 = .error (.error (.stackUnderflow 0x202)) := by
    decide +kernel
  obtain ⟨done, failed⟩ := goes
  obtain ⟨steps, once, batches⟩ := run_same_as_steps stumbling fun _ => true
  have stopped := ((steps 2).2 _).mpr ⟨1, by decide, failed⟩
  obtain ⟨result, machine⟩ := (batches 2 1000).2 _ stopped
  exact ⟨done, ((batches 1 1000).1 done).1, stopped, result, machine,
    fun j again => once 1 j _ _ failed again⟩

end Machine

end Chip8
