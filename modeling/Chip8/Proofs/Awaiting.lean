import Chip8.Proofs.Clocking
import Mathlib.Data.List.Perm.Basic
import Mathlib.Data.List.FinRange

/-! # Waiting for a key

A machine that waits for a key goes on waiting while no key or several keys are down, and the first
keys that are exactly one key set it running again.  On the way it looks at nothing but the keypad,
so it does not matter where its program counter is or what is in its memory.

The non-trivial ingredient is `Keypad.single_eq_some_iff`: the scan of the keypad finds a key
exactly if that key is down and no other one is.
-/

namespace Chip8

def KeySource.Only (keys : KeySource) (k : Fin 16) : Prop :=
  ∀ i, keys i = true ↔ i = k

theorem Keypad.single_eq_some_iff {p : Keypad} {k : Fin 16} :
    p.single = some k ↔ ∀ i, p.keys.get i = true ↔ i = k := by
  have listed : ∀ i, i ∈ p.down ↔ p.keys.get i = true := by
    intro i
    simp [down]
  have found : p.single = some k ↔ p.down = [k] := by
    unfold single
    split
    next only => simp [only]
    next several =>
      constructor
      · intro none
        cases none
      · intro only
        exact absurd only (several k)
  rw [found]
  constructor
  · intro only i
    rw [← listed, only, List.mem_singleton]
  · intro only
    have distinct : p.down.Nodup := (List.nodup_finRange 16).filter _
    -- a list without duplicates whose only member is `k`
    apply List.perm_singleton.mp
    rw [List.perm_ext_iff_of_nodup distinct (List.nodup_singleton k)]
    intro i
    rw [listed, only, List.mem_singleton]

/-- The machine with another memory, at another place in it. -/
def Machine.elsewhere (m : Machine) (memory : Memory) (pc : UInt16) : Machine :=
  { m with memory, pc }

/-- The step comes out the same with any other memory and program counter, so it fetched nothing. -/
def Moment.Unfetched (moment : Moment) : Prop :=
  ∀ memory pc, (moment.machine.elsewhere memory pc).step moment.keys =
    { moment.machine.step moment.keys with machine := moment.left.elsewhere memory pc }

namespace Machine

variable {m : Machine} {keys : KeySource} {x : UInt8} {k : Fin 16}

theorem single_refresh (p : Keypad) : (p.refresh keys).single = some k ↔ keys.Only k := by
  have held : ∀ i, (p.refresh keys).keys.get i = keys i := by
    intro i
    rw [refresh_eq_ofFn]
    exact Vector.getElem_ofFn i.isLt
  simp only [Keypad.single_eq_some_iff, held, KeySource.Only]

theorem single_refreshed : (m.refreshed keys).keypad.single = some k ↔ keys.Only k :=
  single_refresh m.keypad

theorem single_refreshed_eq_none (undecided : ∀ k, ¬ keys.Only k) :
    (m.refreshed keys).keypad.single = none := by
  rw [Option.eq_none_iff_forall_ne_some]
  intro k pressed
  exact undecided k (single_refreshed.mp pressed)

/-! ## Steps -/

theorem step_undecided (waits : m.state = .waitingForKey x) (undecided : ∀ k, ¬ keys.Only k) :
    m.step keys = (m.refreshed keys).finishing .waiting := by
  rw [step_of_waiting waits, awaitCycle, single_refreshed_eq_none undecided]
  rfl

theorem step_pressed (waits : m.state = .waitingForKey x) (pressed : keys.Only k) :
    m.step keys = (((m.refreshed keys).resumed x (ofNibble k)).finishing
      (.keyReceived (ofNibble k))).logged [.keyReceived (ofNibble k) x] := by
  rw [step_of_waiting waits, awaitCycle, single_refreshed.mpr pressed]
  rfl

theorem machine_of_pressed (waits : m.state = .waitingForKey x) (pressed : keys.Only k) :
    ∃ delay sound, (m.step keys).machine = { m with
      registers := m.registers.set x (ofNibble k)
      keypad := ⟨Vector.ofFn keys⟩
      state := .running
      delay, sound } := by
  obtain ⟨delay, sound, ticked⟩ :=
    ((m.refreshed keys).resumed x (ofNibble k)).cycleTimers_machine
  refine ⟨delay, sound, ?_⟩
  rw [step_pressed waits pressed, ← refresh_eq_ofFn m.keypad]
  exact ticked

/-- The key goes into one register, and the other ones keep what they held. -/
theorem v_of_pressed (waits : m.state = .waitingForKey x) (pressed : keys.Only k) (r : UInt8) :
    (m.step keys).machine.v r = if nibble x = nibble r then ofNibble k else m.v r := by
  obtain ⟨delay, sound, left⟩ := machine_of_pressed waits pressed
  rw [left]
  exact m.registers.get_set x r (ofNibble k)

theorem finishing_elsewhere (m : Machine) (s : Step) (memory : Memory) (pc : UInt16) :
    (m.elsewhere memory pc).finishing s =
      { m.finishing s with machine := (m.finishing s).machine.elsewhere memory pc } := by
  obtain ⟨_, _, _, _, _, _, _, _, _, _, mode, _, _⟩ := m
  cases mode with
  | perCycle => rfl
  | realtime => rfl

theorem unfetched_of_waiting (waits : m.state = .waitingForKey x) (keys : KeySource) :
    Moment.Unfetched ⟨m, keys⟩ := by
  intro memory pc
  have waits' : (m.elsewhere memory pc).state = .waitingForKey x := waits
  simp only [Moment.left]
  by_cases pressed : ∃ k, keys.Only k
  · obtain ⟨k, pressed⟩ := pressed
    rw [step_pressed waits pressed, step_pressed waits' pressed]
    exact congrArg (Outcome.logged _)
      (finishing_elsewhere ((m.refreshed keys).resumed x (ofNibble k)) _ memory pc)
  · have undecided : ∀ k, ¬ keys.Only k := fun k only => pressed ⟨k, only⟩
    rw [step_undecided waits undecided, step_undecided waits' undecided]
    exact finishing_elsewhere (m.refreshed keys) _ memory pc

/-! ## Sequences of steps -/

theorem after_undecided (before : List KeySource) (waits : m.state = .waitingForKey x)
    (undecided : ∀ keys ∈ before, ∀ k, ¬ keys.Only k) :
    (∀ moment ∈ m.moments (before.map .step), moment.result = .ok .waiting
        ∧ moment.left.state = .waitingForKey x ∧ moment.Unfetched)
      ∧ ∃ keypad delay sound,
          m.after (before.map .step) = { m with keypad, delay, sound } := by
  induction before generalizing m with
  | nil =>
    refine ⟨?_, _, _, _, rfl⟩
    intro moment member
    cases member
  | cons keys before ih =>
    have first := step_undecided waits (undecided keys (List.mem_cons_self ..))
    obtain ⟨delay, sound, ticked⟩ := (m.refreshed keys).cycleTimers_machine
    have left : (m.step keys).machine =
        { m with keypad := m.keypad.refresh keys, delay, sound } := by
      rw [first]
      exact ticked
    have waits' : (m.step keys).machine.state = .waitingForKey x := by
      rw [left]
      exact waits
    obtain ⟨answers, keypad', delay', sound', reached⟩ := ih waits'
      (fun keys member => undecided keys (List.mem_cons_of_mem _ member))
    constructor
    · intro moment member
      rcases List.mem_cons.mp member with rfl | member
      · exact ⟨congrArg Outcome.result first, waits', unfetched_of_waiting waits keys⟩
      · exact answers moment member
    · refine ⟨keypad', delay', sound', ?_⟩
      show (m.step keys).machine.after (before.map .step) = _
      rw [reached, left]

theorem after_counted_of_waiting (clock : Clock) (ks : List KeySource) (awake : m.state ≠ .halted)
    (answers : ∀ moment ∈ m.moments (ks.map .step),
      moment.result = .ok .waiting ∨ ∃ key, moment.result = .ok (.keyReceived key)) :
    clock.Counted m ks.length (m.after (ks.map .step)) := by
  refine after_counted clock ks awake ?_ ?_
  · intro moment member
    rcases answers moment member with waiting | ⟨key, received⟩
    · exact ⟨_, waiting⟩
    · exact ⟨_, received⟩
  · intro moment member y set
    rcases answers moment member with waiting | ⟨key, received⟩
    · rw [waiting] at set
      cases set
    · rw [received] at set
      cases set

/-- A machine that waits for a key takes the first keys that are exactly one key.  Up to there every
    step answers that the machine waits, and it does; then the register holds the key, every other
    register holds what it held, and the machine runs again.  No step on the way fails or fetches an
    instruction, and apart from the register only the keypad changes, and the timers as far as the
    mode has them tick.  Where the program counter is does not matter, until the machine runs
    again. -/
theorem waits_for_one_key (m : Machine) {x : UInt8} (waits : m.state = .waitingForKey x)
    (before : List KeySource) (undecided : ∀ keys ∈ before, ∀ k, ¬ keys.Only k)
    {m' : Machine} (reached : m.after (before.map .step) = m') :
    (∀ moment ∈ m.moments (before.map .step), moment.result = .ok .waiting
        ∧ moment.left.state = .waitingForKey x ∧ moment.Unfetched)
      ∧ m'.state = .waitingForKey x
      ∧ (∃ keypad delay sound, m' = { m with keypad, delay, sound })
      ∧ (∀ clock : Clock, clock.Counted m before.length m')
      ∧ ∀ keys k, keys.Only k →
          (m'.step keys).result = .ok (.keyReceived (ofNibble k))
            ∧ (m'.step keys).machine.v x = ofNibble k
            ∧ (∀ r, nibble r ≠ nibble x → (m'.step keys).machine.v r = m.v r)
            ∧ (∃ delay sound, (m'.step keys).machine = { m with
                registers := m.registers.set x (ofNibble k)
                keypad := ⟨Vector.ofFn keys⟩
                state := .running
                delay, sound })
            ∧ (∀ clock : Clock, clock.Counted m (before.length + 1) (m'.step keys).machine)
            ∧ Moment.Unfetched ⟨m', keys⟩
            ∧ (0xFFF ≤ m.pc.toNat → ∀ keys',
                ((m'.step keys).machine.step keys').result
                  = .error (.error (.pcOutOfRange m.pc))) := by
  obtain ⟨answers, keypad, delay, sound, left⟩ := after_undecided before waits undecided
  have awake : m.state ≠ .halted := by simp [waits]
  have waits' : m'.state = .waitingForKey x := by
    rw [← reached, left]
    exact waits
  have silent : ∀ moment ∈ m.moments (before.map .step),
      moment.result = .ok .waiting ∨ ∃ key, moment.result = .ok (.keyReceived key) :=
    fun moment member => .inl (answers moment member).1
  refine ⟨answers, waits', ⟨keypad, delay, sound, reached ▸ left⟩, ?_, ?_⟩
  · intro clock
    rw [← reached]
    exact after_counted_of_waiting clock before awake silent
  · intro keys k pressed
    have result : (m'.step keys).result = .ok (.keyReceived (ofNibble k)) :=
      congrArg Outcome.result (step_pressed waits' pressed)
    obtain ⟨delay', sound', machine⟩ := machine_of_pressed waits' pressed
    refine ⟨result, ?_, ?_, ⟨delay', sound', ?_⟩, ?_, unfetched_of_waiting waits' keys, ?_⟩
    · rw [v_of_pressed waits' pressed, if_pos rfl]
    · intro r other
      rw [v_of_pressed waits' pressed, if_neg other.symm, ← reached, left]
      rfl
    · rw [machine, ← reached, left]
    · intro clock
      -- the step that takes the key is one more step of the same sequence
      have counted := after_counted_of_waiting (m := m) clock (before ++ [keys]) awake ?_
      · rw [after_snoc, reached, List.length_append] at counted
        exact counted
      · intro moment member
        rw [moments_snoc, reached, List.mem_append] at member
        rcases member with early | last
        · exact silent moment early
        · rw [List.mem_singleton.mp last]
          exact .inr ⟨_, result⟩
    · intro far keys'
      have pc : m'.pc = m.pc := by rw [← reached, left]
      have outside : Memory.size ≤ m'.pc.toNat + 1 := by
        rw [pc]
        exact Nat.succ_le_succ far
      rw [machine, ← pc]
      exact step_of_outside rfl outside

/-- A machine that waits for a key with its program counter on the last cell, and 0xAB in every
    register. -/
def lingering : Machine :=
  { fresh (.arithmetic 0 0) with
    registers := ⟨Vector.replicate 16 0xAB⟩
    pc := 0xFFF
    state := .waitingForKey 5
    delay := ⟨2⟩ }

/-- No key, all keys, two keys, and no key again. -/
def fumbling : List KeySource :=
  [fun _ => false, fun _ => true, fun k => k.val == 3 || k.val == 7, fun _ => false]

def seven : KeySource :=
  fun k => k.val == 7

theorem lingering_takes_seven :
    (∀ moment ∈ lingering.moments (fumbling.map .step), moment.result = .ok .waiting)
      ∧ ((lingering.after (fumbling.map .step)).step seven).result = .ok (.keyReceived 7)
      ∧ ((lingering.after (fumbling.map .step)).step seven).machine.v 5 = 7
      ∧ ((lingering.after (fumbling.map .step)).step seven).machine.v 4 = 0xAB
      ∧ ∀ keys, (((lingering.after (fumbling.map .step)).step seven).machine.step keys).result
          = .error (.error (.pcOutOfRange 0xFFF)) := by
  have undecided : ∀ keys ∈ fumbling, ∀ k, ¬ keys.Only k := by
    intro keys member
    simp only [fumbling, List.mem_cons, List.not_mem_nil, or_false] at member
    unfold KeySource.Only
    rcases member with rfl | rfl | rfl | rfl <;> decide
  have only : seven.Only 7 := by
    unfold seven KeySource.Only
    decide
  obtain ⟨answers, _, _, _, taken⟩ := waits_for_one_key lingering rfl fumbling undecided rfl
  obtain ⟨received, register, others, _, _, _, ranOff⟩ := taken seven 7 only
  exact ⟨fun moment member => (answers moment member).1, received, register,
    others 4 (by decide), ranOff (by decide)⟩

end Machine

end Chip8
