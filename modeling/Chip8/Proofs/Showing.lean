import Chip8.Proofs.Drawing
import Chip8.Proofs.Framing
import Chip8.Proofs.Turns

/-! # What the window shows

The window is never stale: whenever a session is asked whether it is open, the picture drawn last is
the machine's display, from the first turn on.  Three things have to go together for that: no
instruction draws on the display without raising the redraw flag (`Redrawn`), the flag is raised
before the first turn, and it is lowered only by a turn that shows the display.
-/

namespace Chip8

/-! ## Drawing on the display -/

/-- Whether the instruction draws on the display. -/
def Instruction.draws : Instruction → Bool
  | .clearScreen | .draw .. => true
  | _ => false

/-- Whether the step executes an instruction that draws on the display. -/
def Moment.draws (moment : Moment) : Bool :=
  match moment.result with
  | .ok (.executed ins) => ins.draws
  | _ => false

namespace Machine

variable {m m' m'' : Machine} {keys : KeySource} {ins : Instruction} {flow : Flow}
  {ms ms' : List Moment}

theorem display_untouched (address : Nat) (quiet : ins.draws = false) :
    .display ∉ ins.touches address ∧ .redraw ∉ ins.touches address := by
  cases ins with
  | clearScreen | draw => cases quiet
  | _ => simp [Instruction.touches]

theorem execute_raises (draws : ins.draws = true) (done : (m.execute ins).result = .ok flow) :
    (m.execute ins).machine.redraw = true := by
  have ended := m.ends ins
  generalize m.execute ins = o at done ended ⊢
  cases ended with
  | stopped => cases done
  | drawn => rfl
  | called | returned | jumped | storedDecimal | savedRegisters | restoredRegisters => cases draws
  | other succeeds =>
    cases ins with
    | clearScreen => rfl
    | draw => exact False.elim succeeds
    | _ => cases draws

/-- What the steps of a history have to do with the display and its flag; it leads from `m` to `m'`
    by way of the steps `ms`. -/
structure Redrawn (m : Machine) (ms : List Moment) (m' : Machine) : Prop where
  kept : (∀ moment ∈ ms, moment.draws = false) →
    m'.display = m.display ∧ m'.redraw = m.redraw
  raised : (∃ moment ∈ ms, moment.draws = true) → m'.redraw = true

theorem draws_of_answered (answered : (m.step keys).result = .ok (.ofInstruction ins)) :
    Moment.draws ⟨m, keys⟩ = ins.draws := by
  rw [Moment.draws, Moment.result, answered]
  cases ins <;> rfl

theorem step_undrawn (quiet : Moment.draws ⟨m, keys⟩ = false) :
    (m.step keys).machine.display = m.display ∧ (m.step keys).machine.redraw = m.redraw := by
  have told : ∀ ins, (m.step keys).result = .ok (.ofInstruction ins) → ins.draws = false :=
    fun _ answered => (draws_of_answered answered).symm.trans quiet
  have step := m.stepped keys
  generalize (m.step keys).result = result, (m.step keys).machine = machine at told step ⊢
  cases step with
  | halted | ranOff | failed | faulted => exact ⟨rfl, rfl⟩
  | waiting | received =>
    rw [cycleTimers_eq]
    exact ⟨rfl, rfl⟩
  | executed =>
    obtain ⟨display, redraw⟩ := display_untouched m.index.address (told _ rfl)
    rw [cycleTimers_eq]
    exact ⟨execute_same (m := m.refreshed keys) display,
      execute_same (m := m.refreshed keys) redraw⟩

theorem step_drawn (draws : Moment.draws ⟨m, keys⟩ = true) :
    (m.step keys).machine.redraw = true := by
  rw [Moment.draws] at draws
  split at draws
  next ins answered =>
    obtain ⟨_, _, _, flow, done, left⟩ := of_executed answered
    rw [left, cycleTimers_eq]
    exact execute_raises draws done
  next => cases draws

theorem Redrawn.append (first : Redrawn m ms m') (second : Redrawn m' ms' m'') :
    Redrawn m (ms ++ ms') m'' where
  kept quiet := by
    obtain ⟨display, redraw⟩ :=
      first.kept fun moment member => quiet moment (List.mem_append_left _ member)
    obtain ⟨display', redraw'⟩ :=
      second.kept fun moment member => quiet moment (List.mem_append_right _ member)
    exact ⟨display'.trans display, redraw'.trans redraw⟩
  raised := by
    rintro ⟨moment, member, draws⟩
    by_cases late : ∃ moment ∈ ms', moment.draws = true
    · exact second.raised late
    · -- no later step lowers the flag again
      have quiet : ∀ moment ∈ ms', moment.draws = false := by
        intro moment member
        exact eq_false_of_ne_true fun draws => late ⟨moment, member, draws⟩
      rw [(second.kept quiet).2]
      apply first.raised
      rcases List.mem_append.mp member with member | member
      · exact ⟨moment, member, draws⟩
      · exact absurd ⟨moment, member, draws⟩ late

theorem step_redrawn (moment : Moment) : Redrawn moment.machine [moment] moment.left where
  kept quiet := step_undrawn (quiet moment (List.mem_singleton_self _))
  raised := by
    rintro ⟨moment', member, draws⟩
    cases List.mem_singleton.mp member
    exact step_drawn draws

theorem run_redrawn (m : Machine) (keys : KeySource) (n : Nat) :
    Redrawn m (m.runMoments keys n) (m.run n keys).machine := by
  refine run_composes (R := Redrawn) ?_ step_redrawn Redrawn.append m keys n
  intro m
  exact ⟨fun _ => ⟨rfl, rfl⟩, fun ⟨_, member, _⟩ => by cases member⟩

end Machine

/-! ## Pictures -/

/-- Whether a picture is that of a frame, each pixel in the colour of its state. -/
def PixelBuffer.Shows (picture : PixelBuffer) (fb : FrameBuffer) : Prop :=
  ∀ p : Pixel, picture.colour p.column p.row = if fb.isOn p then lit else dark

namespace PixelBuffer

variable {picture : PixelBuffer} {fb fb' : FrameBuffer}

theorem lit_ne_dark : lit ≠ dark := by decide

theorem getElem?_blit (b : PixelBuffer) (fb : FrameBuffer) {x y : Nat}
    (inside : x < FrameBuffer.width) (below : y < FrameBuffer.height) :
    (b.blit fb).pixels[64 * y + x]? = some (if fb.isSet x y then lit else dark) := by
  simp only [FrameBuffer.width, FrameBuffer.height] at inside below
  have place : 64 * y + x < 2048 := by omega
  have column : (64 * y + x) % 64 = x := by omega
  have row : (64 * y + x) / 64 = y := by omega
  rw [Vector.getElem?_eq_getElem place]
  simp only [blit, Vector.getElem_mapFinIdx, column, row]

theorem blit_shows (b : PixelBuffer) (fb : FrameBuffer) : (b.blit fb).Shows fb := by
  intro p
  rw [colour, getElem?_blit b fb p.column.isLt p.row.isLt, Option.getD_some]
  rfl

/-- A picture that shows a frame shows no other. -/
theorem Shows.unique (shows : picture.Shows fb) : picture.Shows fb' ↔ fb' = fb := by
  constructor
  · intro shows'
    apply FrameBuffer.eq_of_isOn
    intro p
    have same := (shows' p).symm.trans (shows p)
    have differ := lit_ne_dark
    revert same
    cases fb'.isOn p <;> cases fb.isOn p <;> simp [differ, differ.symm]
  · rintro rfl
    exact shows

end PixelBuffer

/-- The picture that an event shows. -/
def WindowEvent.picture? : WindowEvent → Option PixelBuffer
  | .drawn picture => some picture
  | _ => none

/-- The picture that was shown last. -/
def Window.lastDrawn (w : Window) : Option PixelBuffer :=
  (w.events.toList.filterMap WindowEvent.picture?).getLast?

namespace Session

variable {s t u : Session} {pace : Pace} {k : Nat} {event : WindowEvent}

theorem titles_titled (s : Session) (pace : Pace) :
    ∀ event ∈ s.titles pace, ∃ title, event = .titled title := by
  intro event member
  unfold titles at member
  split at member
  next => cases member
  next => exact ⟨_, List.mem_singleton.mp member⟩

theorem Served.lastDrawn (served : s.Served pace t event) :
    t.screen.window.lastDrawn = event.picture?.or s.screen.window.lastDrawn := by
  have silent : (s.titles pace).filterMap WindowEvent.picture? = [] := by
    rw [List.filterMap_eq_nil_iff]
    intro event member
    obtain ⟨title, rfl⟩ := s.titles_titled pace event member
    rfl
  rw [Window.lastDrawn, served.events, List.filterMap_append, List.filterMap_append, silent]
  cases shown : event.picture? with
  | none => simp [shown, Window.lastDrawn]
  | some picture => simp [shown]

/-- What an update instead of a picture tells of the batch in front of it. -/
theorem Served.undrawn (served : s.Served pace t event) (updated : event = .updated) :
    (∀ moment ∈ s.batch pace, moment.draws = false)
      ∧ t.machine.display = s.machine.display ∧ s.machine.redraw = false := by
  obtain ⟨_, _, untimed⟩ := s.staged_untimed pace
  have redrawn := Machine.run_redrawn s.machine s.screen.keys pace.cycles
  have lowered : (s.outcome pace).machine.redraw = false := by
    rcases served.event with ⟨_, drawn⟩ | ⟨lowered, _⟩
    · rw [updated] at drawn
      cases drawn
    · rw [untimed] at lowered
      exact lowered
  have quiet : ∀ moment ∈ s.batch pace, moment.draws = false := by
    intro moment member
    apply eq_false_of_ne_true
    intro draws
    -- an instruction that drew would have left the flag raised
    exact absurd (redrawn.raised ⟨moment, member, draws⟩) (ne_true_of_eq_false lowered)
  obtain ⟨display, redraw⟩ := redrawn.kept quiet
  refine ⟨quiet, ?_, redraw.symm.trans lowered⟩
  rw [served.machine, untimed]
  exact display

/-- The window and the machine before the first turn and, from then on, after every turn. -/
structure Shown (k : Nat) (s : Session) : Prop where
  raised : k = 0 → s.machine.redraw = true
  current : 0 < k → ∃ picture,
    s.screen.window.lastDrawn = some picture ∧ picture.Shows s.machine.display

theorem Shown.next (shown : Shown k s) (went : s.turn pace = .next t) : Shown (k + 1) t := by
  refine ⟨fun first => absurd first (Nat.succ_ne_zero k), fun _ => ?_⟩
  obtain ⟨event, served⟩ := served_of_next went
  rcases served.event with ⟨_, rfl⟩ | ⟨_, rfl⟩
  · refine ⟨(s.staged pace).picture, served.lastDrawn, ?_⟩
    rw [served.machine]
    exact PixelBuffer.blit_shows _ _
  · obtain ⟨_, display, lowered⟩ := served.undrawn rfl
    -- in front of the first turn the flag is raised, so this is a later one
    have later : 0 < k := by
      apply Nat.pos_of_ne_zero
      intro first
      exact absurd (shown.raised first) (ne_true_of_eq_false lowered)
    obtain ⟨picture, last, shows⟩ := shown.current later
    refine ⟨picture, served.lastDrawn.trans last, ?_⟩
    rw [display]
    exact shows

theorem shown_afterTurns (raised : s.machine.redraw = true)
    (reached : s.afterTurns pace k = some t) : Shown k t := by
  refine afterTurns_preserves (P := Shown) ⟨fun _ => raised, fun later => ?_⟩ ?_ reached
  · exact absurd later (Nat.lt_irrefl 0)
  · intro _ _ _ _ _ went shown
    exact shown.next went

theorem raised_of_prepare {around : Surroundings} {config : Config}
    (went : Program.prepare around config = .ok (s, pace)) : s.machine.redraw = true := by
  have prepared := Program.prepared around config
  rw [went] at prepared
  cases prepared with
  | ready => rfl

/-- The window is never stale.  Whenever the program asks whether its session is open, apart from
    the first time, the picture drawn last is the machine's display and no other.  A turn that goes
    on changes the title or not, and then either draws or lets a frame pass; the first one draws,
    and a later one lets a frame pass only if no instruction of its batch drew on the display, which
    is then as the window shows it. -/
theorem window_never_stale {around : Surroundings} {config : Config}
    (went : Program.prepare around config = .ok (s, pace))
    (reached : s.afterTurns pace k = some t) :
    Program.runWith around config = Program.reportOf (t.play pace)
      ∧ (0 < k → ∃ picture, t.screen.window.lastDrawn = some picture
          ∧ ∀ fb, picture.Shows fb ↔ fb = t.machine.display)
      ∧ ∀ u, t.another pace = some u → ∃ titles event,
          u.screen.window.events.toList = t.screen.window.events.toList ++ titles ++ [event]
            ∧ (∀ event ∈ titles, ∃ title, event = .titled title)
            ∧ (event = .updated ∨ ∃ picture, event = .drawn picture)
            ∧ (k = 0 → event ≠ .updated)
            ∧ (event = .updated → (∀ moment ∈ t.batch pace, moment.draws = false)
                ∧ u.machine.display = t.machine.display) := by
  have shown := shown_afterTurns (raised_of_prepare went) reached
  refine ⟨?_, ?_, ?_⟩
  · rw [Program.runWith, went]
    exact congrArg Program.reportOf (play_of_afterTurns reached)
  · intro later
    obtain ⟨picture, last, shows⟩ := shown.current later
    exact ⟨picture, last, fun fb => shows.unique⟩
  · intro u taken
    obtain ⟨_, next⟩ := another_eq_some_iff.mp taken
    obtain ⟨event, served⟩ := served_of_next next
    refine ⟨t.titles pace, event, served.events, t.titles_titled pace, ?_, ?_, ?_⟩
    · rcases served.event with ⟨_, drawn⟩ | ⟨_, updated⟩
      · exact .inr ⟨_, drawn⟩
      · exact .inl updated
    · intro first updated
      exact absurd (shown.raised first) (ne_true_of_eq_false (served.undrawn updated).2.2)
    · intro updated
      obtain ⟨quiet, display, _⟩ := served.undrawn updated
      exact ⟨quiet, display⟩

/-- A program that clears the display once, in front of a window that is open for three frames. -/
def clearingOnce : Surroundings where
  read _ := .ok [0x00, 0xE0, 0x12, 0x02]
  script := { Script.empty with frames := 3 }
  random := .arithmetic 0 0

/-- Two instructions per frame. -/
def twoPerFrame : Config where
  rom := "clear.ch8"
  cyclesPerSecond := 120
  timerMode := .perCycle
  scale := .x1

theorem clearingOnce_never_stale : ∃ s pace t u,
    Program.prepare clearingOnce twoPerFrame = .ok (s, pace)
      ∧ s.afterTurns pace 1 = some t ∧ t.another pace = some u
      ∧ (∃ picture, t.screen.window.lastDrawn = some picture
        ∧ picture.Shows t.machine.display)
      ∧ u.screen.window.events.toList.getLast? = some .updated
      ∧ u.machine.display = t.machine.display := by
  have goes : Program.after clearingOnce twoPerFrame 1 (fun t pace => (t.another pace).bind fun u =>
      u.screen.window.events.toList.getLast?) = some .updated := by
    decide +kernel
  obtain ⟨s, pace, t, went, reached, looked⟩ := Program.reached_of_after goes
  obtain ⟨u, taken, last⟩ := Option.bind_eq_some_iff.mp looked
  obtain ⟨_, current, turns⟩ := window_never_stale went reached
  obtain ⟨picture, drawn, shows⟩ := current Nat.one_pos
  obtain ⟨titles, event, events, _, _, _, updated⟩ := turns u taken
  rw [events, List.getLast?_concat] at last
  refine ⟨s, pace, t, u, went, reached, taken, ⟨picture, drawn, (shows _).mpr rfl⟩, ?_,
    (updated (Option.some.inj last)).2⟩
  rw [events, List.getLast?_concat, last]

end Session

end Chip8
