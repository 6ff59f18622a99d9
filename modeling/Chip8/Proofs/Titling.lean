import Chip8.Proofs.Concluding

/-! # What the title says

The screen remembers what its title says and gives a new one only when that changes.  So the titles
are the changes of what the screen is told (`changes`), which alternate, and the title that was
given last is always the one that it remembers (`Screen.Told`).  A session tells its screen whether
there is a sound after the timers had their last tick of the turn, in either timer mode; from there
to the next test nothing touches them.
-/

namespace Chip8

/-! ## Truth values that change -/

/-- Those of the values that differ from the one in front of them; `before` is in front of the
    first. -/
def changes (before : Bool) : List Bool → List Bool
  | [] => []
  | b :: rest => if b = before then changes b rest else b :: changes b rest

/-- So many values, each but the first different from the one in front of it. -/
def alternating (first : Bool) : Nat → List Bool
  | 0 => []
  | n + 1 => first :: alternating (!first) n

theorem changes_eq_alternating (before : Bool) (bs : List Bool) :
    ∃ n, changes before bs = alternating (!before) n := by
  induction bs generalizing before with
  | nil => exact ⟨0, rfl⟩
  | cons b rest ih =>
    obtain ⟨n, same⟩ := ih b
    by_cases unchanged : b = before
    · rw [changes, if_pos unchanged, same, unchanged]
      exact ⟨n, rfl⟩
    · -- there are only two values, so a change is a negation
      have other : b = !before := Bool.eq_not.mpr unchanged
      rw [changes, if_neg unchanged, same, other]
      exact ⟨n + 1, rfl⟩

/-! ## Titles -/

/-- The title that an event gives to the window. -/
def WindowEvent.title? : WindowEvent → Option String
  | .opened _ title | .titled title => some title
  | _ => none

namespace Window

/-- The title that was given last. -/
def lastTitle (w : Window) : Option String :=
  (w.events.toList.filterMap WindowEvent.title?).getLast?

theorem lastTitle_record (w : Window) (event : WindowEvent) :
    (w.record event).lastTitle = event.title?.or w.lastTitle := by
  rw [lastTitle, record, Array.toList_push, List.filterMap_append]
  cases titled : event.title? with
  | none => simp [titled, lastTitle]
  | some title => simp [titled]

end Window

/-- Whether a title speaks of a sound. -/
def SaysBeep (title : String) : Prop :=
  "[beep]".toList <:+: title.toList

instance (title : String) : Decidable (SaysBeep title) :=
  inferInstanceAs (Decidable (_ <:+: _))

namespace Screen

variable {s : Screen}

theorem saysBeep_title (beeping : Bool) : SaysBeep (title beeping) ↔ beeping = true := by
  cases beeping with
  | false => exact iff_of_false (by decide +kernel) Bool.noConfusion
  | true => exact iff_of_true (by decide +kernel) rfl

/-- The title given last is what the screen remembers of it. -/
def Told (s : Screen) : Prop :=
  s.window.lastTitle = some (title s.beeping)

theorem beeping_setBeeping (s : Screen) (beeping : Bool) :
    (s.setBeeping beeping).beeping = beeping := by
  unfold setBeeping
  split
  next same => exact same.symm
  next => rfl

theorem events_setBeeping (s : Screen) (beeping : Bool) :
    (s.setBeeping beeping).window.events.toList = s.window.events.toList ++
      if beeping = s.beeping then [] else [.titled (title beeping)] := by
  unfold setBeeping
  split
  next => exact (List.append_nil _).symm
  next => exact Array.toList_push

theorem Told.setBeeping (told : s.Told) (beeping : Bool) : (s.setBeeping beeping).Told := by
  unfold Screen.setBeeping
  split
  next => exact told
  next => exact Window.lastTitle_record ..

theorem beeping_told (s : Screen) (calls : List Bool) :
    (calls.foldl setBeeping s).beeping = calls.getLast?.getD s.beeping := by
  induction calls generalizing s with
  | nil => rfl
  | cons b rest ih =>
    rw [List.foldl_cons, ih, beeping_setBeeping, List.getLast?_cons, Option.getD_some]

theorem events_told (s : Screen) (calls : List Bool) :
    (calls.foldl setBeeping s).window.events.toList = s.window.events.toList ++
      (changes s.beeping calls).map fun b => .titled (title b) := by
  induction calls generalizing s with
  | nil => exact (List.append_nil _).symm
  | cons b rest ih =>
    rw [List.foldl_cons, ih, events_setBeeping, beeping_setBeeping, changes, List.append_assoc]
    split <;> rfl

theorem Told.foldl (told : s.Told) (calls : List Bool) :
    (calls.foldl Screen.setBeeping s).Told := by
  induction calls generalizing s with
  | nil => exact told
  | cons b rest ih => exact ih (told.setBeeping b)

theorem of_create {script : Script} {scale : Scale} (opened : create script scale = .ok s) :
    s = .opened script scale := by
  unfold create Window.create at opened
  split at opened
  next => cases opened
  next =>
    cases opened
    rfl

theorem told_opened (script : Script) (scale : Scale) : (opened script scale).Told := rfl

end Screen

theorem Machine.soundActive_iff (m : Machine) : m.soundActive = true ↔ m.sound.count ≠ 0 := by
  rw [soundActive, Timer.isActive, decide_eq_true_eq]
  exact UInt8.pos_iff_ne_zero

namespace Session

variable {s t : Session} {pace : Pace} {k : Nat}

/-- What a session that is tested has said. -/
structure Titled (s : Session) : Prop where
  told : s.screen.Told
  heard : s.screen.beeping = s.machine.soundActive

theorem Titled.next (titled : s.Titled) (went : s.turn pace = .next t) : t.Titled := by
  have told : (s.staged pace).screen.Told := by
    rw [staged_screen]
    exact titled.told.setBeeping _
  have heard : (s.staged pace).screen.beeping = (s.staged pace).machine.soundActive := by
    rw [staged_screen, Screen.beeping_setBeeping]
  -- what is left of the turn gives no title and does not touch the sound timer
  have turned := s.turned pace
  rw [went] at turned
  cases turned with
  | drawn _ _ accepted =>
    rw [Window.of_draw accepted]
    exact ⟨(Window.lastTitle_record ..).trans told, heard⟩
  | updated => exact ⟨(Window.lastTitle_record ..).trans told, heard⟩

theorem Titled.afterTurns (titled : s.Titled) (reached : s.afterTurns pace k = some t) :
    t.Titled := by
  refine afterTurns_preserves (P := fun _ t => t.Titled) titled ?_ reached
  intro _ _ _ _ _ went titled
  exact titled.next went

theorem titled_of_prepare {around : Surroundings} {config : Config}
    (went : Program.prepare around config = .ok (s, pace)) : s.Titled := by
  have prepared := Program.prepared around config
  rw [went] at prepared
  cases prepared with
  | ready => exact ⟨Screen.told_opened .., rfl⟩

end Session

namespace Program

/-- The title always tells whether there is a sound.  A screen gives its window a title exactly when
    it is told something else than the last time, so the titles alternate and begin with a sound,
    and the one given last speaks of a sound if the screen was told so last.  Whenever a program
    asks whether its session is open, the title given last speaks of a sound exactly if the sound
    timer has not run out. -/
theorem title_tells_sound :
    (∀ script scale s, Screen.create script scale = .ok s → ∀ calls : List Bool,
        (calls.foldl Screen.setBeeping s).window.events.toList = s.window.events.toList ++
            (changes false calls).map (fun b => .titled (Screen.title b))
          ∧ (∃ n, changes false calls = alternating true n)
          ∧ (∀ b, ((calls ++ [b]).foldl Screen.setBeeping s).window.events.toList =
              (calls.foldl Screen.setBeeping s).window.events.toList ++
                if b = calls.getLast?.getD false then [] else [.titled (Screen.title b)])
          ∧ ∃ shown, (calls.foldl Screen.setBeeping s).window.lastTitle = some shown
            ∧ (SaysBeep shown ↔ calls.getLast?.getD false = true))
      ∧ ∀ around argv config, CommandLine.parse argv = .ok config →
        ∀ t, .testing t ∈ course around config →
          (∃ s pace, prepare around config = .ok (s, pace)
              ∧ run around argv = reportOf (t.play pace))
            ∧ ∃ shown, t.screen.window.lastTitle = some shown
              ∧ (SaysBeep shown ↔ t.machine.sound.count ≠ 0) := by
  constructor
  · intro script scale s opened calls
    obtain rfl := Screen.of_create opened
    have beeping := (Screen.opened script scale).beeping_told calls
    refine ⟨Screen.events_told _ calls, changes_eq_alternating false calls, ?_, _,
      (Screen.told_opened script scale).foldl calls, ?_⟩
    · intro b
      rw [List.foldl_append, List.foldl_cons, List.foldl_nil, Screen.events_setBeeping, beeping]
      rfl
    · rw [Screen.saysBeep_title, beeping]
      rfl
  · intro around argv config accepted t tested
    obtain ⟨s, pace, k, went, reached⟩ := tested_iff.mp tested
    have titled := (Session.titled_of_prepare went).afterTurns reached
    refine ⟨⟨s, pace, went, ?_⟩, _, titled.told, ?_⟩
    · rw [run, accepted]
      dsimp only
      rw [runWith, went]
      exact congrArg reportOf (Session.play_of_afterTurns reached)
    · rw [Screen.saysBeep_title, titled.heard, Machine.soundActive_iff]

/-- A program that makes a short sound, in front of a window that is open for eight frames. -/
def humming : Surroundings where
  read _ := .ok [0x60, 0x02, 0xF0, 0x18, 0x12, 0x04]
  script := { Script.empty with frames := 8 }
  random := .arithmetic 0 0

/-- What a command line that names only this program says. -/
def hummed : Config where
  rom := "hum.ch8"
  cyclesPerSecond := 60
  timerMode := .perCycle
  scale := .x8

/-- The program is tested behind `k` turns with so much left on its sound timer. -/
theorem tested_humming {k : Nat} {left : UInt8}
    (goes : after humming hummed k (fun t _ => some t.machine.sound.count) = some left) :
    ∃ t, .testing t ∈ course humming hummed ∧ t.machine.sound.count = left := by
  obtain ⟨s, pace, t, went, reached, looked⟩ := reached_of_after goes
  exact ⟨t, tested_iff.mpr ⟨s, pace, k, went, reached⟩, Option.some.inj looked⟩

theorem title_tells_sound_humming :
    (∃ s, Screen.create humming.script .x8 = .ok s
        ∧ ([true, true, false, true].foldl Screen.setBeeping s).window.events.toList =
          s.window.events.toList ++ [.titled Screen.beepTitle, .titled Screen.quietTitle,
            .titled Screen.beepTitle])
      ∧ (∃ t shown, .testing t ∈ course humming hummed
          ∧ t.screen.window.lastTitle = some shown ∧ SaysBeep shown)
      ∧ ∃ t shown, .testing t ∈ course humming hummed
          ∧ t.screen.window.lastTitle = some shown ∧ ¬ SaysBeep shown := by
  have accepted : CommandLine.parse ["chip8", "hum.ch8"] = .ok hummed := by decide +kernel
  obtain ⟨loud, tested, one⟩ : ∃ t, .testing t ∈ course humming hummed
      ∧ t.machine.sound.count = 1 := tested_humming (k := 2) (by decide +kernel)
  obtain ⟨quiet, tested', zero⟩ : ∃ t, .testing t ∈ course humming hummed
      ∧ t.machine.sound.count = 0 := tested_humming (k := 3) (by decide +kernel)
  obtain ⟨screens, tests⟩ := title_tells_sound
  obtain ⟨events, _⟩ := screens humming.script .x8 _ rfl [true, true, false, true]
  obtain ⟨_, shown, last, tells⟩ := tests humming _ hummed accepted loud tested
  obtain ⟨_, shown', last', tells'⟩ := tests humming _ hummed accepted quiet tested'
  refine ⟨⟨_, rfl, events⟩, ⟨loud, shown, tested, last, tells.mpr ?_⟩,
    quiet, shown', tested', last', fun beeps => tells'.mp beeps zero⟩
  rw [one]
  decide

end Program

end Chip8
