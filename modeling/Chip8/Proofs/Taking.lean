import Chip8.Proofs.Showing

/-! # When a frame is handed out

A machine hands out its display the first time it is asked, and after that only if an instruction
that draws was completed since it was asked last, by a step, in a run or by the host itself.  When
it hands out nothing, the display is what it was then.

The non-trivial ingredient is `Repainted`, which ties the display and its flag at the two ends of a
history to the instructions that were completed in between.  It goes over from the operations to a
history as long as no frame is taken (`after_repainted`), and taking one lowers the flag.
-/

namespace Chip8

/-! ## Completed instructions -/

/-- The instruction that the step completes. -/
def Moment.completed (moment : Moment) : Option Instruction :=
  match moment.result with
  | .ok (.executed ins) => some ins
  | _ => none

/-- The instructions that an operation completes, in order. -/
def Operation.completed (m : Machine) : Operation → List Instruction
  | .execute ins =>
    match (m.execute ins).result with
    | .ok _ => [ins]
    | .error _ => []
  | op => (op.moments m).filterMap Moment.completed

/-- The instructions that a history completes, in order. -/
def Machine.completed (m : Machine) : List Operation → List Instruction
  | [] => []
  | op :: ops => op.completed m ++ (op.apply m).completed ops

theorem Moment.any_completed (ms : List Moment) :
    (ms.filterMap Moment.completed).any Instruction.draws = ms.any Moment.draws := by
  have single (moment : Moment) : moment.completed.any Instruction.draws = moment.draws := by
    unfold completed draws
    cases moment.result with
    | error cause => rfl
    | ok step => cases step <;> rfl
  rw [List.any_filterMap]
  congr 1
  funext moment
  rw [← single moment]
  cases moment.completed <;> rfl

namespace Machine

variable {m m' m'' : Machine} {op : Operation} {ops before since : List Operation} {a b : Bool}
  {ms : List Moment}

/-! ## The display and its flag -/

/-- What a history that takes no frame has to do with the display and its flag; `drew` says whether
    an instruction that draws was completed. -/
structure Repainted (m : Machine) (drew : Bool) (m' : Machine) : Prop where
  kept : drew = false → m'.display = m.display ∧ m'.redraw = m.redraw
  raised : drew = true → m'.redraw = true

theorem Repainted.of_same (display : m'.display = m.display) (redraw : m'.redraw = m.redraw) :
    Repainted m false m' :=
  ⟨fun _ => ⟨display, redraw⟩, nofun⟩

theorem Repainted.trans (first : Repainted m a m') (second : Repainted m' b m'') :
    Repainted m (a || b) m'' where
  kept quiet := by
    obtain ⟨early, late⟩ := Bool.or_eq_false_iff.mp quiet
    obtain ⟨display, redraw⟩ := first.kept early
    obtain ⟨display', redraw'⟩ := second.kept late
    exact ⟨display'.trans display, redraw'.trans redraw⟩
  raised drew := by
    cases b with
    | true => exact second.raised rfl
    | false =>
      -- what came later did not lower the flag again
      rw [Bool.or_false] at drew
      rw [(second.kept rfl).2]
      exact first.raised drew

theorem Redrawn.repainted (redrawn : Redrawn m ms m') : Repainted m (ms.any Moment.draws) m' where
  kept quiet := by
    apply redrawn.kept
    intro moment member
    exact eq_false_of_ne_true (List.any_eq_false.mp quiet moment member)
  raised drew := redrawn.raised (List.any_eq_true.mp drew)

theorem execute_repainted (m : Machine) (ins : Instruction) :
    Repainted m ((Operation.completed m (.execute ins)).any Instruction.draws)
      (m.execute ins).machine := by
  cases done : (m.execute ins).result with
  | error cause =>
    rw [machine_of_error done]
    simp only [Operation.completed, done]
    exact .of_same rfl rfl
  | ok flow =>
    simp only [Operation.completed, done, List.any_cons, List.any_nil, Bool.or_false]
    cases draws : ins.draws with
    | true => exact ⟨nofun, fun _ => execute_raises draws done⟩
    | false =>
      obtain ⟨display, redraw⟩ := display_untouched m.index.address draws
      exact .of_same (execute_same display) (execute_same redraw)

theorem apply_repainted (untaken : .takeFrame ≠ op) (m : Machine) :
    Repainted m ((op.completed m).any Instruction.draws) (op.apply m) := by
  cases op with
  | takeFrame => exact absurd rfl untaken
  | execute ins => exact execute_repainted m ins
  | step keys =>
    change Repainted m (([⟨m, keys⟩].filterMap Moment.completed).any Instruction.draws) _
    rw [Moment.any_completed]
    exact (step_redrawn ⟨m, keys⟩).repainted
  | run cycles keys =>
    change Repainted m (((m.runMoments keys cycles).filterMap Moment.completed).any
      Instruction.draws) _
    rw [Moment.any_completed]
    exact (run_redrawn m keys cycles).repainted
  | tickTimers | setTimerMode => exact .of_same rfl rfl
  | loadRom rom =>
    simp only [Operation.apply]
    split
    next loaded =>
      obtain ⟨memory, rfl⟩ := machine_of_loadRom loaded
      exact .of_same rfl rfl
    next => exact .of_same rfl rfl

theorem after_repainted (untaken : .takeFrame ∉ ops) (m : Machine) :
    Repainted m ((m.completed ops).any Instruction.draws) (m.after ops) := by
  induction ops generalizing m with
  | nil => exact .of_same rfl rfl
  | cons op ops ih =>
    obtain ⟨first, rest⟩ := List.ne_and_not_mem_of_not_mem_cons untaken
    rw [completed, List.any_append]
    exact (apply_repainted first m).trans (ih rest (op.apply m))

/-! ## Taking frames -/

/-- Frames are taken from a history for the last time behind `before`, and `since` is the rest. -/
structure LastTaken (ops before since : List Operation) : Prop where
  split : ops = before ++ .takeFrame :: since
  untaken : .takeFrame ∉ since

theorem exists_lastTaken (taken : .takeFrame ∈ ops) : ∃ before since,
    LastTaken ops before since := by
  induction ops with
  | nil => cases taken
  | cons op ops ih =>
    by_cases later : .takeFrame ∈ ops
    · obtain ⟨before, since, rfl, untaken⟩ := ih later
      exact ⟨op :: before, since, rfl, untaken⟩
    · rcases List.mem_cons.mp taken with rfl | again
      · exact ⟨[], ops, rfl, later⟩
      · exact absurd again later

theorem takeFrame_eq_some_iff {frame : FrameBuffer} :
    m.takeFrame.1 = some frame ↔ frame = m.display ∧ m.redraw = true := by
  unfold takeFrame
  cases m.redraw with
  | true => simp [eq_comm]
  | false => simp

theorem takeFrame_eq_none_iff : m.takeFrame.1 = none ↔ m.redraw = false := by
  unfold takeFrame
  cases m.redraw <;> simp

/-- Taking a frame lowers the flag and leaves the display alone. -/
theorem takeFrame_machine (m : Machine) : m.takeFrame.2 = { m with redraw := false } := by
  unfold takeFrame
  split
  next => rfl
  next lowered =>
    rw [← eq_false_of_ne_true lowered]

theorem after_taking (m : Machine) (before : List Operation) :
    m.after (before ++ [.takeFrame]) = { m.after before with redraw := false } := by
  rw [after_append]
  exact takeFrame_machine _

theorem LastTaken.repainted (last : LastTaken ops before since) (m : Machine) :
    Repainted (m.after (before ++ [.takeFrame]))
      (((m.after (before ++ [.takeFrame])).completed since).any Instruction.draws)
      (m.after ops) := by
  have whole : ops = before ++ [.takeFrame] ++ since := last.split.trans (List.append_cons ..)
  rw [whole, after_append m _ since]
  exact after_repainted last.untaken _

theorem LastTaken.redraw_iff (last : LastTaken ops before since) (m : Machine) :
    (m.after ops).redraw = true ↔
      ∃ ins ∈ (m.after (before ++ [.takeFrame])).completed since, ins.draws = true := by
  have repainted := last.repainted m
  rw [← List.any_eq_true]
  constructor
  · intro raised
    apply Classical.byContradiction
    intro quiet
    -- the flag was lowered when the last frame was taken
    rw [(repainted.kept (eq_false_of_ne_true quiet)).2, after_taking] at raised
    cases raised
  · exact repainted.raised

theorem LastTaken.display_eq (last : LastTaken ops before since)
    (lowered : (m.after ops).redraw = false) :
    (m.after ops).display = (m.after before).display := by
  have repainted := last.repainted m
  have quiet : ((m.after (before ++ [.takeFrame])).completed since).any Instruction.draws = false :=
    eq_false_of_ne_true fun drew => ne_true_of_eq_false lowered (repainted.raised drew)
  rw [(repainted.kept quiet).1, after_taking]

theorem redraw_of_untaken (untaken : .takeFrame ∉ ops) (raised : m.redraw = true) :
    (m.after ops).redraw = true := by
  have repainted := after_repainted untaken m
  cases drew : (m.completed ops).any Instruction.draws with
  | true => exact repainted.raised drew
  | false => exact (repainted.kept drew).2.trans raised

/-! ## Failures -/

theorem step_of_failed {keys : KeySource} {cause : Stop}
    (failed : (m.step keys).result = .error cause) :
    (m.step keys).machine.display = m.display ∧ (m.step keys).machine.redraw = m.redraw := by
  apply step_undrawn
  rw [Moment.draws, Moment.result, failed]

/-! ## The redraw flag is exact -/

/-- However a fresh machine is driven, by the program or by instructions of the host's own, it hands
    out its display when no frame was taken before, or when an instruction that draws was completed
    since the last one was; and it hands out nothing else.  When it hands out nothing, the display
    is the one of the last time that a frame was taken.  An instruction that fails, say one that
    draws from behind the end of memory, leaves both the flag and the display alone, whether the
    host gives it or a step comes to it. -/
theorem frame_taken_iff_drawn (random : RandomSource) (ops : List Operation) :
    (∀ frame, ((fresh random).after ops).takeFrame.1 = some frame ↔
        frame = ((fresh random).after ops).display ∧ (.takeFrame ∉ ops
          ∨ ∃ before since, LastTaken ops before since
            ∧ ∃ ins ∈ ((fresh random).after (before ++ [.takeFrame])).completed since,
                ins.draws = true))
      ∧ (((fresh random).after ops).takeFrame.1 = none → ∃ before since, LastTaken ops before since
          ∧ ((fresh random).after ops).display = ((fresh random).after before).display)
      ∧ ∀ (m : Machine) (cause : Stop),
          (∀ ins, (m.execute ins).result = .error cause →
            (m.execute ins).machine.redraw = m.redraw
              ∧ (m.execute ins).machine.display = m.display)
          ∧ ∀ keys, (m.step keys).result = .error cause →
            (m.step keys).machine.redraw = m.redraw
              ∧ (m.step keys).machine.display = m.display := by
  have raised : (fresh random).redraw = true := rfl
  refine ⟨?_, ?_, ?_⟩
  · intro frame
    rw [takeFrame_eq_some_iff]
    refine and_congr_right fun _ => ?_
    by_cases taken : .takeFrame ∈ ops
    · obtain ⟨before, since, last⟩ := exists_lastTaken taken
      constructor
      · intro drawn
        exact .inr ⟨before, since, last, (last.redraw_iff _).mp drawn⟩
      · rintro (untaken | ⟨_, _, last, drawn⟩)
        · exact absurd taken untaken
        · exact (last.redraw_iff _).mpr drawn
    · exact iff_of_true (redraw_of_untaken taken raised) (.inl taken)
  · intro nothing
    have lowered := takeFrame_eq_none_iff.mp nothing
    have taken : .takeFrame ∈ ops := by
      apply Classical.byContradiction
      intro untaken
      exact ne_true_of_eq_false lowered (redraw_of_untaken untaken raised)
    obtain ⟨before, since, last⟩ := exists_lastTaken taken
    exact ⟨before, since, last, last.display_eq lowered⟩
  · intro m cause
    constructor
    · intro ins failed
      rw [machine_of_error failed]
      exact ⟨rfl, rfl⟩
    · intro keys failed
      exact (step_of_failed failed).symm

/-- A program that draws three rows from the last two cells of memory, and a frame taken before. -/
def overdrawing : List Operation :=
  [.loadRom [0xAF, 0xFE, 0xD0, 0x03], .takeFrame, .run 5 fun _ => false]

theorem overdrawing_hands_out_nothing :
    ((fresh (.arithmetic 0 0)).after overdrawing).takeFrame.1 = none
      ∧ ((fresh (.arithmetic 0 0)).after overdrawing).state = .halted
      ∧ (∃ before since, LastTaken overdrawing before since
        ∧ ((fresh (.arithmetic 0 0)).after overdrawing).display
          = ((fresh (.arithmetic 0 0)).after before).display)
      ∧ ∃ frame, ((fresh (.arithmetic 0 0)).after
          (overdrawing ++ [.execute .clearScreen])).takeFrame.1 = some frame := by
  have goes : ((fresh (.arithmetic 0 0)).after overdrawing).takeFrame.1 = none
      ∧ ((fresh (.arithmetic 0 0)).after overdrawing).state = .halted := by
    decide +kernel
  obtain ⟨_, kept, _⟩ := frame_taken_iff_drawn (.arithmetic 0 0) overdrawing
  obtain ⟨handed, _⟩ := frame_taken_iff_drawn (.arithmetic 0 0)
    (overdrawing ++ [.execute .clearScreen])
  have last : LastTaken (overdrawing ++ [.execute .clearScreen]) (overdrawing.take 1)
      (overdrawing.drop 2 ++ [.execute .clearScreen]) := ⟨rfl, by simp [overdrawing]⟩
  have cleared : .clearScreen ∈ ((fresh (.arithmetic 0 0)).after
      (overdrawing.take 1 ++ [.takeFrame])).completed
        (overdrawing.drop 2 ++ [.execute .clearScreen]) := by
    decide +kernel
  exact ⟨goes.1, goes.2, kept goes.1, _, (handed _).mpr ⟨rfl, .inr ⟨_, _, last, _, cleared, rfl⟩⟩⟩

end Machine

end Chip8
