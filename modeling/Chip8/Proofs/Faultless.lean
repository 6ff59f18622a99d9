import Chip8.Proofs.Checked
import Chip8.Proofs.Runs

/-! # No step runs into a fault

The one thing a step relies on without checking is that the stack has at most sixteen addresses;
every step keeps that, so neither a step nor a run of any length meets a fault, in whatever state
the rest of the machine is.
-/

namespace Chip8

namespace Machine

variable {m : Machine} {keys : KeySource} {f : Fault}

theorem step_bounded (bounded : m.stack.depth ≤ CallStack.capacity) :
    (m.step keys).machine.stack.depth ≤ CallStack.capacity := by
  rcases m.step_stack keys with same | ⟨flow, went⟩
  · rw [same]
    exact bounded
  · exact went.depth_le bounded

theorem step_faultless (bounded : m.stack.depth ≤ CallStack.capacity) :
    (m.step keys).result ≠ .error (.fault f) := by
  intro faulty
  have step := m.stepped keys
  generalize (m.step keys).result = result, (m.step keys).machine = machine at step faulty
  cases step with
  | faulted _ _ stops => exact decoded_not_fault bounded stops
  | _ => cases faulty

theorem run_faultless (n : Nat) (bounded : m.stack.depth ≤ CallStack.capacity) :
    (m.run n keys).result ≠ .error (.fault f)
      ∧ (m.run n keys).machine.stack.depth ≤ CallStack.capacity := by
  induction n generalizing m with
  | zero =>
    obtain ⟨result, machine⟩ := m.run_zero keys
    rw [result, machine]
    exact ⟨by simp, bounded⟩
  | succ n ih =>
    have kept : (m.step keys).machine.stack.depth ≤ CallStack.capacity := step_bounded bounded
    cases done : (m.step keys).result with
    | error cause =>
      obtain ⟨result, machine⟩ := run_of_error n done
      rw [result, machine]
      refine ⟨?_, kept⟩
      intro faulty
      cases faulty
      exact step_faultless bounded done
    | ok s =>
      by_cases halted : s = .halted
      · rw [halted] at done
        obtain ⟨result, machine⟩ := run_of_halted n done
        rw [result, machine]
        exact ⟨by simp, kept⟩
      · obtain ⟨result, machine⟩ := run_of_ok n done halted
        rw [result, machine]
        exact ih kept

/-- Neither a step nor a run meets a fault, in any state with at most sixteen addresses on the
    stack, and both leave such a state again.  What they do without any check, drawing, ticking and
    pointing at a glyph, is what comes of it with every index, shift, sum and difference checked. -/
theorem step_and_run_meet_no_fault (m : Machine) (bounded : m.stack.depth ≤ CallStack.capacity)
    (keys : KeySource) (n : Nat) (f : Fault) :
    ((m.step keys).result ≠ .error (.fault f)
        ∧ (m.step keys).machine.stack.depth ≤ CallStack.capacity)
      ∧ ((m.run n keys).result ≠ .error (.fault f)
        ∧ (m.run n keys).machine.stack.depth ≤ CallStack.capacity)
      ∧ (∀ (fb : FrameBuffer) (x y : UInt8) (sprite : List UInt8),
          fb.plot x y sprite = .ok (fb.paint x y sprite))
      ∧ (∀ t : Timer, t.countDown = .ok t.tick)
      ∧ ∀ digit, Memory.glyphAddress digit =
          .ok (Memory.fontBase + (digit &&& 0xF).toUInt16 * Memory.glyphLength) := by
  refine ⟨⟨step_faultless bounded, step_bounded bounded⟩, run_faultless n bounded, ?_, ?_, ?_⟩
  · intro fb x y sprite
    exact fb.plot_eq x y sprite
  · intro t
    exact t.countDown_eq
  · intro digit
    exact Memory.glyphAddress_eq digit

/-- A machine with all sixteen slots taken that waits for a key to go into register 200. -/
def crowded : Machine :=
  { fresh (.arithmetic 0 0) with
    stack := { slots := Vector.replicate 16 0x202, depth := 16 }
    state := .waitingForKey 200 }

theorem crowded_meets_no_fault :
    crowded.stack.depth ≤ CallStack.capacity
      ∧ (crowded.step fun _ => true).result ≠ .error (.fault .indexOutOfRange)
      ∧ (crowded.run 1000 fun _ => true).result ≠ .error (.fault .indexOutOfRange)
      ∧ crowded.display.plot 60 30 [0xFF, 0xFF, 0xFF] =
          .ok (crowded.display.paint 60 30 [0xFF, 0xFF, 0xFF]) := by
  have bounded : crowded.stack.depth ≤ CallStack.capacity := by decide
  obtain ⟨step, run, plot, _, _⟩ :=
    step_and_run_meet_no_fault crowded bounded (fun _ => true) 1000 .indexOutOfRange
  exact ⟨bounded, step.1, run.1, plot _ _ _ _⟩

end Machine

end Chip8
