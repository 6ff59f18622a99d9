import Chip8.Proofs.Returning

/-! # The stack as a bounded list

Whatever is pushed and popped, the stack gives the answers of a list that takes sixteen addresses
and no more.  The list is the one of the live addresses, and since nothing else of the stack has a
part in it, what the free slots hold makes no difference to any answer.

The non-trivial ingredient is `serve_stands`: a stack that stands for a list answers one request as
the list does, and stands for what becomes of the list.
-/

namespace Chip8

/-! ## Requests and answers -/

inductive StackRequest where
  /-- `pc` is where the call is. -/
  | push (addr pc : UInt16)
  /-- `pc` is where the return is. -/
  | pop (pc : UInt16)
  deriving DecidableEq, Repr, Inhabited

/-- The address that was asked for, and none where there was nothing to ask for. -/
abbrev StackAnswer := Except Stop (Option UInt16)

namespace StackRequest

variable {σ τ : Type}

/-- What is answered to a list of requests in turn, and how deep it is after each of them. -/
def answers (serve : σ → StackRequest → StackAnswer × σ) (depth : σ → Nat) (s : σ) :
    List StackRequest → List (StackAnswer × Nat)
  | [] => []
  | request :: rest =>
    ((serve s request).1, depth (serve s request).2)
      :: answers serve depth (serve s request).2 rest

/-- What is there after a list of requests. -/
def served (serve : σ → StackRequest → StackAnswer × σ) (s : σ) (requests : List StackRequest) : σ :=
  requests.foldl (fun s request => (serve s request).2) s

theorem answers_eq_of_related {serve : σ → StackRequest → StackAnswer × σ}
    {serve' : τ → StackRequest → StackAnswer × τ} {depth : σ → Nat} {depth' : τ → Nat}
    {R : σ → τ → Prop} (level : ∀ {s t}, R s t → depth s = depth' t)
    (square : ∀ {s t} request, R s t →
      (serve s request).1 = (serve' t request).1 ∧ R (serve s request).2 (serve' t request).2)
    {s : σ} {t : τ} (related : R s t) (requests : List StackRequest) :
    answers serve depth s requests = answers serve' depth' t requests
      ∧ R (served serve s requests) (served serve' t requests) := by
  induction requests generalizing s t with
  | nil => exact ⟨rfl, related⟩
  | cons request rest ih =>
    obtain ⟨same, related'⟩ := square request related
    obtain ⟨later, reached⟩ := ih related'
    refine ⟨?_, reached⟩
    rw [answers, answers, same, level related', later]

end StackRequest

namespace CallStack

open StackRequest (answers served answers_eq_of_related)

/-! ## Both sides -/

/-- A list of at most `capacity` addresses as a stack, its newest address first. -/
def serveList (addresses : List UInt16) : StackRequest → StackAnswer × List UInt16
  | .push addr pc =>
    if addresses.length < capacity then (.ok none, addr :: addresses)
    else (.error (.error (.stackOverflow pc)), addresses)
  | .pop pc =>
    match addresses with
    | [] => (.error (.error (.stackUnderflow pc)), [])
    | addr :: rest => (.ok (some addr), rest)

/-- A stack that gives no new one is kept as it is. -/
def serve (s : CallStack) : StackRequest → StackAnswer × CallStack
  | .push addr pc =>
    match s.push addr pc with
    | .ok t => (.ok none, t)
    | .error cause => (.error cause, s)
  | .pop pc =>
    match s.pop pc with
    | .ok (addr, t) => (.ok (some addr), t)
    | .error cause => (.error cause, s)

/-- The stack is within its capacity, and these are its live addresses. -/
structure Stands (s : CallStack) (addresses : List UInt16) : Prop where
  bounded : s.depth ≤ capacity
  live : s.live = addresses

variable {s : CallStack} {addresses : List UInt16}

theorem Stands.depth_eq (stands : s.Stands addresses) : s.depth = addresses.length := by
  rw [← stands.live, length_live stands.bounded]

theorem stands_empty : empty.Stands [] where
  bounded := Nat.zero_le _
  live := rfl

theorem serve_stands (request : StackRequest) (stands : s.Stands addresses) :
    (s.serve request).1 = (serveList addresses request).1
      ∧ (s.serve request).2.Stands (serveList addresses request).2 := by
  have depth := stands.depth_eq
  have inside : ¬ capacity < s.depth := Nat.not_lt_of_le stands.bounded
  cases request with
  | push addr pc =>
    cases pushed : s.push addr pc with
    | error cause =>
      obtain ⟨full, rfl⟩ := ((push_error_iff s addr pc cause).mp pushed).resolve_right
        fun beyond => inside beyond.1
      have noRoom : ¬ addresses.length < capacity := by omega
      simp only [serve, pushed, serveList, noRoom, if_false, true_and]
      exact stands
    | ok t =>
      obtain ⟨deeper, room⟩ := depth_of_push pushed
      have room' : addresses.length < capacity := depth ▸ room
      simp only [serve, pushed, serveList, room', if_true, true_and]
      exact
        { bounded := deeper ▸ room
          live := (live_push pushed).trans (congrArg _ stands.live) }
  | pop pc =>
    cases popped : s.pop pc with
    | error cause =>
      obtain ⟨bottom, rfl⟩ := ((pop_error_iff s pc cause).mp popped).resolve_right
        fun beyond => inside beyond.1
      obtain rfl : addresses = [] := List.eq_nil_of_length_eq_zero (depth ▸ bottom)
      simp only [serve, popped, serveList, true_and]
      exact stands
    | ok found =>
      obtain ⟨addr, t⟩ := found
      have shallower := depth_of_pop popped
      obtain rfl : addresses = addr :: t.live := stands.live.symm.trans (live_pop popped)
      have bounded := stands.bounded
      simp only [serve, popped, serveList, true_and]
      exact { bounded := by omega, live := rfl }

theorem answers_of_stands (stands : s.Stands addresses) (requests : List StackRequest) :
    answers serve depth s requests = answers serveList List.length addresses requests
      ∧ (served serve s requests).Stands (served serveList addresses requests) :=
  answers_eq_of_related (R := Stands) Stands.depth_eq serve_stands stands requests

/-! ## Slots that are free -/

/-- Only the slots in use count for the live addresses. -/
theorem Stands.with_slots (stands : s.Stands addresses) {slots : Vector UInt16 16}
    (same : ∀ i < s.depth, slots[i]? = s.slots[i]?) : { s with slots }.Stands addresses where
  bounded := stands.bounded
  live := by
    rw [← stands.live]
    refine congrArg List.reverse (List.ext_getElem? fun i => ?_)
    by_cases used : i < s.depth
    · rw [List.getElem?_take_of_lt used, List.getElem?_take_of_lt used, Vector.getElem?_toList,
        Vector.getElem?_toList, same i used]
    · rw [List.getElem?_take, List.getElem?_take, if_neg used, if_neg used]

/-- Pushes and pops on a new stack are answered as by a list of at most sixteen addresses, to the
    last answer and the last depth, failures included.  At any time the free slots could as well
    hold something else: nothing that is asked later is answered differently. -/
theorem answers_as_bounded_list (requests : List StackRequest) :
    answers serve depth empty requests = answers serveList List.length [] requests
      ∧ (served serve empty requests).live = served serveList [] requests
      ∧ (served serve empty requests).depth ≤ 16
      ∧ ∀ slots : Vector UInt16 16,
          (∀ i < (served serve empty requests).depth,
            slots[i]? = (served serve empty requests).slots[i]?) →
          ∀ later, answers serve depth { served serve empty requests with slots } later
            = answers serve depth (served serve empty requests) later := by
  obtain ⟨same, reached⟩ := answers_of_stands stands_empty requests
  refine ⟨same, reached.live, reached.bounded, ?_⟩
  intro slots used later
  rw [(answers_of_stands (reached.with_slots used) later).1, (answers_of_stands reached later).1]

/-- One call more than there is room for, and all but one of the returns. -/
def unwinding : List StackRequest :=
  List.replicate 17 (.push 0x202 0x2AA) ++ List.replicate 15 (.pop 0x400)

/-- One address in use, and other ones in the free slots than were pushed. -/
def littered : Vector UInt16 16 :=
  #v[0x202, 0xFFF, 0xFFF, 0xFFF, 0xFFF, 0xFFF, 0xFFF, 0xFFF,
     0xFFF, 0xFFF, 0xFFF, 0xFFF, 0xFFF, 0xFFF, 0xFFF, 0xFFF]

theorem unwinding_answers : (served serve empty unwinding).live = [0x202]
    ∧ (answers serve depth empty unwinding)[16]? = some (.error (.error (.stackOverflow 0x2AA)), 16)
    ∧ (∀ i < (served serve empty unwinding).depth,
        littered[i]? = (served serve empty unwinding).slots[i]?)
    ∧ answers serve depth { served serve empty unwinding with slots := littered }
        [.push 0x304 0x302, .pop 0x304, .pop 0x206, .pop 0x208]
      = [(.ok none, 2), (.ok (some 0x304), 1), (.ok (some 0x202), 0),
          (.error (.error (.stackUnderflow 0x208)), 0)] := by
  obtain ⟨same, live, _, free⟩ := answers_as_bounded_list unwinding
  have used : ∀ i < (served serve empty unwinding).depth,
      littered[i]? = (served serve empty unwinding).slots[i]? := by decide +kernel
  refine ⟨?_, ?_, used, ?_⟩
  · rw [live]
    rfl
  · rw [same]
    rfl
  · rw [free littered used]
    decide +kernel

end CallStack

end Chip8
