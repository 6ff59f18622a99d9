import Chip8.Proofs.Awaiting
import Chip8.Proofs.Turns
import Mathlib.Data.Set.Operations

/-! # Physical keys on the keypad

A key of the keypad is down exactly while its physical key is held, and the sixteen physical keys
are different ones, so the keypad can show any of its states.  Keys that the keypad does not have
make no difference: a machine that waits for a key takes the one of the only physical key that is
held and on the keypad, whatever else is held.

The non-trivial ingredient is `only_iff_held`: that the keypad has one key down and no other says
that what is held and on the keypad is one physical key.
-/

namespace Chip8

namespace Screen

variable {s : Screen} {k : Fin 16}

/-! ## What is held -/

/-- The physical keys that are held in the current frame. -/
def held (s : Screen) : Set PhysicalKey :=
  {key | s.window.isHeld key = true}

/-- The physical key of a key of the keypad. -/
def physical (k : Fin 16) : PhysicalKey :=
  keymap.get k

/-- The screen with other keys held in the current frame. -/
def holding (s : Screen) (keys : List PhysicalKey) : Screen :=
  let down := List.replicate s.window.counter [] ++ [keys]
  { s with window := { s.window with script := { s.window.script with down } } }

theorem held_holding (s : Screen) (keys : List PhysicalKey) :
    (s.holding keys).held = {key | key ∈ keys} := by
  have current : (s.holding keys).window.script.heldAt s.window.counter = keys := by
    show (List.replicate s.window.counter [] ++ [keys])[s.window.counter]?.getD [] = keys
    rw [List.getElem?_append_right (by rw [List.length_replicate]), List.length_replicate,
      Nat.sub_self]
    rfl
  ext key
  show ((s.holding keys).window.script.heldAt s.window.counter).contains key = true ↔ key ∈ keys
  rw [current, List.contains_iff_mem]

/-! ## From physical keys to the keypad -/

theorem physical_injective : Function.Injective physical := by
  intro k k' same
  revert k k'
  decide

theorem keys_iff_held : s.keys k = true ↔ physical k ∈ s.held :=
  Iff.rfl

theorem isDown_refresh_iff (p : Keypad) :
    (p.refresh s.keys).isDown (ofNibble k) = true ↔ physical k ∈ s.held := by
  rw [Keypad.isDown_refresh, nibble_ofNibble, keys_iff_held]

theorem only_iff_held : s.keys.Only k ↔ s.held ∩ Set.range physical = {physical k} := by
  constructor
  · intro only
    ext key
    constructor
    · rintro ⟨held, i, rfl⟩
      exact congrArg physical ((only i).mp held)
    · rintro rfl
      exact ⟨(only k).mpr rfl, k, rfl⟩
  · intro alone i
    have member : physical i ∈ s.held ∩ Set.range physical ↔ physical i = physical k := by
      rw [alone, Set.mem_singleton_iff]
    rw [keys_iff_held, ← physical_injective.eq_iff, ← member]
    exact (and_iff_left ⟨i, rfl⟩).symm

/-- Every state of the keypad comes of some physical keys. -/
theorem exists_holding (s : Screen) (down : Fin 16 → Bool) :
    ∃ keys, (s.holding keys).keys = down := by
  refine ⟨((List.finRange 16).filter down).map physical, funext fun k => Bool.eq_iff_iff.mpr ?_⟩
  rw [keys_iff_held, held_holding]
  show physical k ∈ ((List.finRange 16).filter down).map physical ↔ down k = true
  rw [List.mem_map_of_injective physical_injective]
  simp

end Screen

namespace Machine

variable {m : Machine} {keys : KeySource} {x : UInt8} {k : Fin 16}

/-! ## A machine that waits -/

theorem received_iff_only (waits : m.state = .waitingForKey x) :
    (m.step keys).result = .ok (.keyReceived (ofNibble k)) ↔ keys.Only k := by
  constructor
  · intro received
    by_cases pressed : ∃ k, keys.Only k
    · obtain ⟨k', only⟩ := pressed
      rw [step_pressed waits only] at received
      have same : ofNibble k' = ofNibble k := Step.keyReceived.inj (Except.ok.inj received)
      rwa [← nibble_ofNibble k, ← same, nibble_ofNibble]
    · rw [step_undecided waits fun k only => pressed ⟨k, only⟩] at received
      cases received
  · intro only
    rw [step_pressed waits only]
    rfl

theorem resumes_iff_only (waits : m.state = .waitingForKey x) :
    (m.step keys).machine.state = .running ↔ ∃ k, keys.Only k := by
  constructor
  · intro runs
    by_contra undecided
    obtain ⟨_, _, ticked⟩ := (m.refreshed keys).cycleTimers_machine
    rw [step_undecided waits fun k only => undecided ⟨k, only⟩] at runs
    change (m.refreshed keys).cycleTimers.1.state = .running at runs
    rw [ticked] at runs
    cases waits.symm.trans runs
  · rintro ⟨k, only⟩
    obtain ⟨_, _, left⟩ := machine_of_pressed waits only
    rw [left]

/-- What is held on the keyboard is what is down on the keypad, key by key, and nothing is lost on
    the way: the keys of the keypad have different physical keys, so all states of the keypad come
    of some keys that are held.  The scan for a single key finds the key whose physical key is the
    only one that is held and on the keypad, however many others are held.  So a machine that waits
    for a key resumes exactly then, with that key in its register. -/
theorem held_keys_decide (s : Screen) :
    (∀ (p : Keypad) k,
        (p.refresh s.keys).isDown (ofNibble k) = true ↔ Screen.physical k ∈ s.held)
      ∧ (∀ keys, (s.holding keys).held = {key | key ∈ keys})
      ∧ (∀ k k', Screen.physical k = Screen.physical k' → k = k')
      ∧ (∀ down : Fin 16 → Bool, ∃ keys, ∀ (p : Keypad) k,
          (p.refresh (s.holding keys).keys).isDown (ofNibble k) = down k)
      ∧ (∀ (p : Keypad) k, (p.refresh s.keys).single = some k ↔
          s.held ∩ Set.range Screen.physical = {Screen.physical k})
      ∧ ∀ (m : Machine) x, m.state = .waitingForKey x →
          ((m.step s.keys).machine.state = .running ↔
              ∃ k, s.held ∩ Set.range Screen.physical = {Screen.physical k})
            ∧ (∀ k, (m.step s.keys).result = .ok (.keyReceived (ofNibble k)) ↔
                s.held ∩ Set.range Screen.physical = {Screen.physical k})
            ∧ ∀ k, s.held ∩ Set.range Screen.physical = {Screen.physical k} →
                (m.step s.keys).machine.v x = ofNibble k := by
  refine ⟨fun p k => Screen.isDown_refresh_iff p, s.held_holding,
    fun k k' => Screen.physical_injective.eq_iff.mp, ?_, ?_, ?_⟩
  · intro down
    obtain ⟨keys, shown⟩ := s.exists_holding down
    refine ⟨keys, fun p k => ?_⟩
    rw [Keypad.isDown_refresh, nibble_ofNibble, shown]
  · intro p k
    rw [single_refresh, Screen.only_iff_held]
  · intro m x waits
    simp only [← Screen.only_iff_held]
    refine ⟨resumes_iff_only waits, fun k => received_iff_only waits, ?_⟩
    intro k only
    obtain ⟨_, _, left⟩ := machine_of_pressed waits only
    rw [left]
    show (m.registers.set x (ofNibble k)).get x = _
    simp

/-- A screen with one key of the keypad held and two others, in a frame far behind the script. -/
def grasping : Screen :=
  ({ Screen.opened Script.empty .x8 with
      window := { (Screen.opened Script.empty .x8).window with counter := 7 } } : Screen).holding
    [⟨"Space"⟩, ⟨"W"⟩, ⟨"Escape"⟩]

theorem grasping_decides : lingering.state = .waitingForKey 5
    ∧ grasping.held ∩ Set.range Screen.physical = {Screen.physical 5}
    ∧ (lingering.step grasping.keys).machine.state = .running
    ∧ (lingering.step grasping.keys).machine.v 5 = 5
    ∧ (Keypad.initial.refresh grasping.keys).single = some 5 := by
  obtain ⟨_, _, _, _, single, waiting⟩ := held_keys_decide grasping
  obtain ⟨resumes, _, taken⟩ := waiting lingering 5 rfl
  have found : (Keypad.initial.refresh grasping.keys).single = some 5 := by decide
  have alone := (single Keypad.initial 5).mp found
  exact ⟨rfl, alone, resumes.mpr ⟨5, alone⟩, taken 5 alone, found⟩

end Machine

end Chip8
