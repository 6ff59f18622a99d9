import Chip8.Error

/-! # The call stack

Return addresses of nested calls, in sixteen slots of which the first `depth` are in use.  What a
program can see of a stack is `live`, the addresses in use from the newest to the oldest; slots that
were given back keep their contents, and no operation reads them before they are written again.
-/

namespace Chip8

/-- The slots of the stack and how many of them are in use. -/
structure CallStack where
  slots : Vector UInt16 16
  depth : Nat
  deriving DecidableEq

namespace CallStack

def capacity : Nat := 16

def empty : CallStack :=
  { slots := Vector.replicate 16 0, depth := 0 }

/-- The return addresses in use, the newest first. -/
def live (s : CallStack) : List UInt16 :=
  (s.slots.toList.take s.depth).reverse

/-- The stack with one more address.  `pc` is where the call is, for the report of an overflow. -/
def push (s : CallStack) (addr pc : UInt16) : Except Stop CallStack :=
  if s.depth = capacity then .error (.error (.stackOverflow pc))
  else if h : s.depth < 16 then .ok { slots := s.slots.set s.depth addr h, depth := s.depth + 1 }
  else .error (.fault .indexOutOfRange)

/-- The newest address, and the stack without it.  `pc` is where the return is, for the report of
    an underflow. -/
def pop (s : CallStack) (pc : UInt16) : Except Stop (UInt16 × CallStack) :=
  if s.depth = 0 then .error (.error (.stackUnderflow pc))
  else if h : s.depth - 1 < 16 then .ok (s.slots[s.depth - 1], { s with depth := s.depth - 1 })
  else .error (.fault .indexOutOfRange)

/-! ## What the operations do to the live addresses -/

theorem live_push {s t : CallStack} {addr pc : UInt16} (pushed : s.push addr pc = .ok t) :
    t.live = addr :: s.live := by
  unfold push at pushed
  split at pushed
  · cases pushed
  · split at pushed
    · cases pushed
      next room =>
        simp only [live, Vector.toList_set, List.take_add_one]
        rw [List.take_set_of_le (Nat.le_refl _)]
        simp [room]
    · cases pushed

theorem live_pop {s t : CallStack} {addr pc : UInt16} (popped : s.pop pc = .ok (addr, t)) :
    s.live = addr :: t.live := by
  unfold pop at popped
  split at popped
  · cases popped
  · split at popped
    · cases popped
      next used room =>
        obtain ⟨depth, counted⟩ : ∃ d, s.depth = d + 1 := ⟨s.depth - 1, by omega⟩
        simp only [live, counted, Nat.add_sub_cancel, List.take_add_one]
        simp only [counted, Nat.add_sub_cancel] at room
        simp [room]
    · cases popped

end CallStack

end Chip8
