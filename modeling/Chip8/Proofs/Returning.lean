import Chip8.Proofs.Faultless
import Chip8.Proofs.History
import Mathlib.Control.Monad.Basic

/-! # Returning from a call

A return undoes the call that it belongs to, whatever was executed in between, further calls and
returns included, as long as the stack never got as low as it was before the call.

The non-trivial ingredient is `suffix_of_step`: a step pushes one address, pops one or leaves the
stack alone, so it cannot reach below the depth it ends at, and the addresses up to there are a
suffix of the live ones that every step keeps.
-/

namespace Chip8

namespace CallStack

variable {s t : CallStack}

theorem length_live (bounded : s.depth ≤ capacity) : s.live.length = s.depth := by
  have room : s.depth ≤ 16 := bounded
  simp [live, room]

/-- Where the live addresses of one stack are the oldest ones of another, the slots agree. -/
theorem slots_of_suffix (kept : s.live <:+ t.live) {i : Nat} (used : i < s.depth) (room : i < 16) :
    t.slots[i]? = s.slots[i]? := by
  have oldest : s.slots.toList.take s.depth <+: t.slots.toList.take t.depth :=
    List.reverse_suffix.mp kept
  obtain ⟨newer, joined⟩ := oldest
  have inFront : i < (s.slots.toList.take s.depth).length := by
    simp only [List.length_take, Vector.length_toList]
    omega
  have entry : (t.slots.toList.take t.depth)[i]? = s.slots[i]? := by
    rw [← joined, List.getElem?_append_left inFront, List.getElem?_take_of_lt used]
    simp
  rw [← entry, List.getElem?_take]
  split
  next => simp
  next unused =>
    -- the joined list would end in front of `i`, but it has an entry there
    rw [List.getElem?_take, if_neg unused, Vector.getElem?_eq_getElem room] at entry
    cases entry

end CallStack

namespace Machine

variable {m : Machine} {keys : KeySource} {ins : Instruction} {addr : UInt16} {flow : Flow}
  {stack : CallStack} {base : List UInt16}

/-! ## The stack along a step -/

theorem push_of_called (called : (m.step keys).result = .ok (.executed (.call addr))) :
    m.stack.push (m.pc + 2) m.pc = .ok (m.step keys).machine.stack := by
  obtain ⟨_, flow, went, _⟩ := control_of_executed called
  generalize (m.step keys).machine.stack = stack at went ⊢
  cases went with
  | straight straight => exact False.elim straight
  | call pushed => exact pushed

theorem pop_of_returned (returned : (m.step keys).result = .ok (.executed .ret)) :
    m.stack.pop m.pc = .ok ((m.step keys).machine.pc, (m.step keys).machine.stack) := by
  obtain ⟨_, flow, went, goes⟩ := control_of_executed returned
  rw [goes]
  generalize (m.step keys).machine.stack = stack at went ⊢
  cases went with
  | straight straight => exact False.elim straight
  | ret popped => exact popped

/-- An instruction leaves the live addresses alone, puts one on top or takes the top one off. -/
theorem Control.live (went : m.Control ins flow stack) :
    stack.live = m.stack.live ∨ (∃ a, stack.live = a :: m.stack.live)
      ∨ ∃ a, m.stack.live = a :: stack.live := by
  cases went with
  | straight | jump | jumpOffset => exact .inl rfl
  | call pushed => exact .inr (.inl ⟨_, CallStack.live_push pushed⟩)
  | ret popped => exact .inr (.inr ⟨_, CallStack.live_pop popped⟩)

theorem step_live (m : Machine) (keys : KeySource) :
    (m.step keys).machine.stack.live = m.stack.live
      ∨ (∃ a, (m.step keys).machine.stack.live = a :: m.stack.live)
      ∨ ∃ a, m.stack.live = a :: (m.step keys).machine.stack.live := by
  rcases m.step_stack keys with same | ⟨flow, went⟩
  · rw [same]
    exact .inl rfl
  · exact went.live

theorem suffix_of_step (bounded : m.stack.depth ≤ CallStack.capacity)
    (deep : base.length ≤ (m.step keys).machine.stack.depth) (kept : base <:+ m.stack.live) :
    base <:+ (m.step keys).machine.stack.live := by
  rcases m.step_live keys with same | ⟨a, pushed⟩ | ⟨a, popped⟩
  · rw [same]
    exact kept
  · rw [pushed]
    exact kept.trans (List.suffix_cons a _)
  · rw [popped, List.suffix_cons_iff] at kept
    rcases kept with whole | below
    · -- the address taken off would be one of `base`, and too few would be left
      have kept : (m.step keys).machine.stack.depth ≤ CallStack.capacity := step_bounded bounded
      have length := CallStack.length_live kept
      rw [whole, List.length_cons] at deep
      omega
    · exact below

theorem suffix_of_after {ops : List Operation} (driving : ∀ op ∈ ops, op.Driving)
    (deep : ∀ moment ∈ m.moments ops, base.length ≤ moment.left.stack.depth)
    (bounded : m.stack.depth ≤ CallStack.capacity) (kept : base <:+ m.stack.live) :
    (m.after ops).stack.depth ≤ CallStack.capacity ∧ base <:+ (m.after ops).stack.live := by
  refine after_preserves
    (P := fun m => m.stack.depth ≤ CallStack.capacity ∧ base <:+ m.stack.live) ?_ ?_ driving
    deep ⟨bounded, kept⟩
  · rintro moment deep ⟨bounded, kept⟩
    exact ⟨step_bounded bounded, suffix_of_step bounded deep kept⟩
  · intro _ _ _ _ _ invariant
    exact invariant

/-! ## The return of a call -/

/-- Between a call and its return the machine is driven in any way in which the stack stays above
    its depth at the call; whether a step in between fails does not matter, but after a failure
    nothing returns any more.  The slots up to the return address keep what the call left in them,
    and the return goes behind the call and gives back the stack from before it. -/
theorem return_undoes_call (m : Machine) (keys : KeySource) {addr : UInt16}
    (called : (m.step keys).result = .ok (.executed (.call addr)))
    (ops : List Operation) (driving : ∀ op ∈ ops, op.Driving)
    (deep : ∀ moment ∈ (m.step keys).machine.moments ops,
      m.stack.depth < moment.left.stack.depth)
    {m' : Machine} (reached : (m.step keys).machine.after ops = m') :
    (∀ i ≤ m.stack.depth, m'.stack.slots[i]? = (m.step keys).machine.stack.slots[i]?)
      ∧ (m.pc + 2) :: m.stack.live <:+ m'.stack.live
      ∧ ∀ keys', (m'.step keys').result = .ok (.executed .ret) →
          m'.stack.depth = m.stack.depth + 1 →
          (m'.step keys').machine.pc.toNat = m.pc.toNat + 2
            ∧ (m'.step keys').machine.stack.depth = m.stack.depth
            ∧ (m'.step keys').machine.stack.live = m.stack.live := by
  have pushed := push_of_called called
  obtain ⟨deeper, room⟩ := CallStack.depth_of_push pushed
  have live : (m.step keys).machine.stack.live = (m.pc + 2) :: m.stack.live :=
    CallStack.live_push pushed
  have bounded : (m.step keys).machine.stack.depth ≤ CallStack.capacity := by omega
  have length := CallStack.length_live bounded
  have high : ∀ moment ∈ (m.step keys).machine.moments ops,
      (m.step keys).machine.stack.live.length ≤ moment.left.stack.depth := by
    intro moment member
    have above := deep moment member
    omega
  obtain ⟨inRange, kept⟩ := suffix_of_after driving high bounded (List.suffix_refl _)
  rw [reached] at inRange kept
  refine ⟨?_, live ▸ kept, ?_⟩
  · intro i used
    simp only [CallStack.capacity] at room
    exact CallStack.slots_of_suffix kept (by omega) (by omega)
  · intro keys' returned level
    have popped := pop_of_returned returned
    have shallower := CallStack.depth_of_pop popped
    -- at this depth there is nothing above the addresses that the call left
    have whole : (m.step keys).machine.stack.live = m'.stack.live := by
      apply kept.eq_of_length
      rw [length, CallStack.length_live inRange, deeper, level]
    rw [live, CallStack.live_pop popped, List.cons.injEq] at whole
    obtain ⟨behind, rest⟩ := whole
    obtain ⟨inside, _⟩ := control_of_executed called
    have low : m.pc.toNat ≤ 0x10FE := by
      simp only [Memory.size] at inside
      omega
    refine ⟨?_, by omega, rest.symm⟩
    rw [← behind]
    exact (toNat_add_forward low).1

/-- A machine with a program that calls a subroutine, which calls another one. -/
def nesting : Machine :=
  { fresh (.arithmetic 0 0) with
    memory := (⟨Vector.replicate 4096 0⟩ : Memory).store 0x200
      [0x22, 0x04, 0x12, 0x02, 0x22, 0x08, 0x00, 0xEE, 0x00, 0xEE] }

def unpressed : KeySource := fun _ => false

/-- Inside the outer call: the inner one, a tick of the host's, and the inner return. -/
def innerCall : List Operation :=
  [.step unpressed, .tickTimers, .step unpressed]

theorem nesting_runs :
    (nesting.step unpressed).result = .ok (.executed (.call 0x204))
      ∧ (∀ moment ∈ (nesting.step unpressed).machine.moments innerCall,
          nesting.stack.depth < moment.left.stack.depth)
      ∧ (((nesting.step unpressed).machine.after innerCall).step unpressed).result
          = .ok (.executed .ret)
      ∧ ((nesting.step unpressed).machine.after innerCall).stack.depth = 1 := by
  decide +kernel

theorem return_undoes_nested_call :
    (nesting.step unpressed).result = .ok (.executed (.call 0x204))
      ∧ (((nesting.step unpressed).machine.after innerCall).step unpressed).result
          = .ok (.executed .ret)
      ∧ (((nesting.step unpressed).machine.after innerCall).step unpressed).machine.pc.toNat
          = 0x202
      ∧ (((nesting.step unpressed).machine.after innerCall).step unpressed).machine.stack.live
          = [] := by
  obtain ⟨called, deep, returned, level⟩ := nesting_runs
  have driving : ∀ op ∈ innerCall, op.Driving := by simp [innerCall, Operation.Driving]
  obtain ⟨_, _, undone⟩ := return_undoes_call nesting unpressed called innerCall driving deep rfl
  obtain ⟨pc, _, live⟩ := undone unpressed returned level
  exact ⟨called, returned, pc, live⟩

end Machine

end Chip8
