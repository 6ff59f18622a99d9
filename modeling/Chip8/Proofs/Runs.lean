import Chip8.Proofs.Stepping

/-! # Runs as steps

A run unfolds into its first step and the run that follows, whatever was logged before.  The three
equations `run_of_error`, `run_of_halted` and `run_of_ok` are all that later proofs need to know
about the loop.
-/

namespace Chip8

namespace Machine

variable {m : Machine} {keys : KeySource} {cause : Stop} {s : Step}

theorem runFrom_log (m : Machine) (keys : KeySource) (earlier later : List Notice) (n : Nat) :
    (m.runFrom keys earlier n).result = (m.runFrom keys later n).result
      ∧ (m.runFrom keys earlier n).machine = (m.runFrom keys later n).machine := by
  -- the records are only added to on the way, and no branch looks at them
  induction n generalizing m earlier later with
  | zero => exact ⟨rfl, rfl⟩
  | succ n ih =>
    simp only [runFrom]
    cases (m.step keys).result with
    | error cause => exact ⟨rfl, rfl⟩
    | ok s =>
      cases s with
      | halted => exact ⟨rfl, rfl⟩
      | executed | unknown | waiting | keyReceived => exact ih ..

theorem run_zero (m : Machine) (keys : KeySource) :
    (m.run 0 keys).result = .ok () ∧ (m.run 0 keys).machine = m :=
  ⟨rfl, rfl⟩

theorem run_of_error (n : Nat) (failed : (m.step keys).result = .error cause) :
    (m.run (n + 1) keys).result = .error cause
      ∧ (m.run (n + 1) keys).machine = (m.step keys).machine := by
  simp only [run, runFrom, failed, and_self]

theorem run_of_halted (n : Nat) (halted : (m.step keys).result = .ok .halted) :
    (m.run (n + 1) keys).result = .ok ()
      ∧ (m.run (n + 1) keys).machine = (m.step keys).machine := by
  simp only [run, runFrom, halted, and_self]

theorem run_of_ok (n : Nat) (done : (m.step keys).result = .ok s) (going : s ≠ .halted) :
    (m.run (n + 1) keys).result = ((m.step keys).machine.run n keys).result
      ∧ (m.run (n + 1) keys).machine = ((m.step keys).machine.run n keys).machine := by
  cases s with
  | halted => contradiction
  | executed | unknown | waiting | keyReceived =>
    simp only [run, runFrom, done]
    exact runFrom_log ..

end Machine

end Chip8
