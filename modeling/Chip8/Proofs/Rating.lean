import Chip8.Proofs.Turns

/-! # Instruction rates

The way of a rate from the command line to the batch of a frame.  Whatever is read from left to
right, a draft only ever changes by taking over an option or the program, so what these two keep
holds of every command line that is accepted (`CommandLine.of_accepted`); that a rate is at least
one is a case of it.  Rounding a rate adds half a frame rate to it first, in 32 bits: the largest
thirty rates that are accepted do not survive that.
-/

namespace Chip8

namespace Numeral

/-- Reading undoes writing. -/
theorem ofDecimal?_toDigits (n : Nat) : ofDecimal? (Nat.toDigits 10 n) = some n := by
  have digits : (Nat.toDigits 10 n).all Char.isDigit = true := by
    rw [List.all_eq_true]
    intro c member
    exact Nat.isDigit_of_mem_toDigits (by decide) (by decide) member
  rw [ofDecimal?, if_pos ⟨Nat.toDigits_ne_nil, digits⟩, Nat.ofDigitChars_ten_toDigits]

/-- A number in decimal does not begin with anything but a digit. -/
theorem toDigits_ne_cons {c : Char} (other : c.isDigit = false) (n : Nat) (rest : List Char) :
    Nat.toDigits 10 n ≠ c :: rest := by
  intro same
  have digit : c.isDigit = true := by
    apply Nat.isDigit_of_mem_toDigits (b := 10) (n := n) (by decide) (by decide)
    rw [same]
    exact List.mem_cons_self
  rw [other] at digit
  cases digit

end Numeral

/-! ## Rounding -/

namespace Config

variable {c c' : Config} {n n' : Nat}

theorem cyclesPerFrame_eq_ok_iff : c.cyclesPerFrame = .ok n ↔
    c.cyclesPerSecond.toNat ≤ 4294967265
      ∧ n = max 1 ((c.cyclesPerSecond.toNat + 30) / 60) := by
  unfold cyclesPerFrame frameRate UInt32.size
  split
  next inside =>
    rw [Except.ok.injEq]
    constructor
    · rintro rfl
      exact ⟨by omega, rfl⟩
    · rintro ⟨_, rfl⟩
      rfl
  next outside =>
    constructor
    · rintro ⟨⟩
    · rintro ⟨slow, _⟩
      omega

theorem cyclesPerFrame_overflow (fast : 4294967265 < c.cyclesPerSecond.toNat) :
    c.cyclesPerFrame = .error .overflow := by
  have outside : ¬ c.cyclesPerSecond.toNat + frameRate / 2 < UInt32.size := by
    rw [frameRate, UInt32.size]
    omega
  rw [cyclesPerFrame, if_neg outside]

theorem cyclesPerFrame_mono (rounded : c.cyclesPerFrame = .ok n)
    (rounded' : c'.cyclesPerFrame = .ok n')
    (faster : c.cyclesPerSecond.toNat ≤ c'.cyclesPerSecond.toNat) : n ≤ n' := by
  obtain ⟨_, rfl⟩ := cyclesPerFrame_eq_ok_iff.mp rounded
  obtain ⟨_, rfl⟩ := cyclesPerFrame_eq_ok_iff.mp rounded'
  have quotients : (c.cyclesPerSecond.toNat + 30) / 60 ≤ (c'.cyclesPerSecond.toNat + 30) / 60 :=
    Nat.div_le_div_right (Nat.add_le_add_right faster 30)
  omega

/-- Rounding is off by half a frame rate at most, unless one instruction per frame is already more
    than was asked for. -/
theorem cyclesPerFrame_near (rounded : c.cyclesPerFrame = .ok n)
    (enough : 30 ≤ c.cyclesPerSecond.toNat) :
    (60 * (n : Int) - c.cyclesPerSecond.toNat).natAbs ≤ 30 := by
  obtain ⟨_, rfl⟩ := cyclesPerFrame_eq_ok_iff.mp rounded
  omega

end Config

/-! ## What accepted command lines have in common -/

theorem readRate_pos {value : List Char} {rate : UInt32} (read : readRate value = .ok rate) :
    1 ≤ rate.toNat := by
  unfold readRate at read
  split at read
  next => cases read
  next n _ =>
    split at read
    next inside =>
      cases read
      have small : n.toNat < UInt32.size := by omega
      rw [UInt32.toNat_ofNat_of_lt' small]
      omega
    next => cases read

theorem readRate_toDigits (rate : UInt32) (positive : 1 ≤ rate.toNat) :
    readRate (Nat.toDigits 10 rate.toNat) = .ok rate := by
  have integer : readInteger? (Nat.toDigits 10 rate.toNat) = some (rate.toNat : Int) := by
    unfold readInteger?
    split
    next same => exact absurd same (Numeral.toDigits_ne_cons (by decide) _ _)
    next same => exact absurd same (Numeral.toDigits_ne_cons (by decide) _ _)
    next =>
      rw [Numeral.ofDecimal?_toDigits]
      rfl
  have inside : 1 ≤ (rate.toNat : Int) ∧ (rate.toNat : Int) < UInt32.size := by
    have := rate.toNat_lt_size
    omega
  rw [readRate, integer]
  dsimp only
  rw [if_pos inside, Int.toNat_natCast, UInt32.ofNat_toNat]

/-- What holds of a draft whatever it takes over. -/
structure Draft.Kept (P : Draft → Prop) : Prop where
  option : ∀ {d d' name value}, P d → d.setOption name value = .ok d' → P d'
  rom : ∀ {d d' path}, P d → d.setRom path = .ok d' → P d'

theorem of_bind_ok {ε α β : Type} {x : Except ε α} {f : α → Except ε β} {b : β}
    (done : (x >>= f) = .ok b) : ∃ a, x = .ok a ∧ f a = .ok b := by
  cases x with
  | error => cases done
  | ok a => exact ⟨a, rfl, done⟩

namespace Argument

/-- What does not begin with a dash is a plain argument. -/
theorem ofText_plain {text : String} (undashed : text.toList.head? ≠ some '-') : ofText text = .plain text := by
  unfold ofText
  split
  next same => exact absurd (congrArg List.head? same) undashed
  next same => exact absurd (congrArg List.head? same) undashed
  next same => exact absurd (congrArg List.head? same) undashed
  next => rfl

theorem ofText_decimal (n : Nat) : ofText (Numeral.decimal n) = .plain (Numeral.decimal n) := by
  apply ofText_plain
  rw [Numeral.decimal, String.toList_ofList]
  intro dashed
  obtain ⟨rest, same⟩ := List.head?_eq_some_iff.mp dashed
  exact Numeral.toDigits_ne_cons (by decide) _ _ same

end Argument

namespace Reading

variable {P : Draft → Prop} {r r' : Reading} {d : Draft}

theorem settle_kept (kept : Draft.Kept P) (holds : P r.draft) (settled : r.settle = .ok d) :
    P d := by
  unfold settle at settled
  split at settled
  next =>
    cases settled
    exact holds
  next => exact kept.rom holds settled
  next => cases settled
  next => exact kept.option holds settled

theorem hold_kept {held : Held} (kept : Draft.Kept P) (holds : P r.draft)
    (went : r.hold held = .ok r') : P r'.draft := by
  obtain ⟨draft, settled, same⟩ := of_bind_ok went
  cases same
  exact settle_kept kept holds settled

theorem plain_kept {text : String} (kept : Draft.Kept P) (holds : P r.draft)
    (went : r.plain text = .ok r') : P r'.draft := by
  unfold plain at went
  split at went
  next =>
    cases went
    exact holds
  next =>
    split at went
    next => cases went
    next => exact hold_kept kept holds went

theorem switch_kept {s : Switch} {value : Option (List Char)} (kept : Draft.Kept P)
    (holds : P r.draft) (went : r.switch s value = .ok r') : P r'.draft := by
  unfold switch at went
  split at went
  next => exact hold_kept kept holds went
  next =>
    obtain ⟨draft, settled, rest⟩ := of_bind_ok went
    obtain ⟨draft', set, same⟩ := of_bind_ok rest
    cases same
    exact kept.option (settle_kept kept holds settled) set
  -- help and version are refusals, however they are asked for
  next =>
    obtain ⟨_, _, refused⟩ := of_bind_ok went
    cases refused
  next =>
    obtain ⟨_, _, refused⟩ := of_bind_ok went
    cases refused

theorem long_kept {setting : Setting} (kept : Draft.Kept P) (holds : P r.draft)
    (went : r.long setting = .ok r') : P r'.draft := by
  unfold long at went
  split at went
  next => cases went
  next => exact switch_kept kept holds went
  next => cases went
  next => exact switch_kept kept holds went

theorem short_kept {letter : Char} {rest : List Char} (kept : Draft.Kept P) (holds : P r.draft)
    (went : r.short letter rest = .ok r') : P r'.draft := by
  unfold short at went
  split at went
  next => cases went
  next => exact switch_kept kept holds went

theorem next_kept {text : String} (kept : Draft.Kept P) (holds : P r.draft)
    (went : r.next text = .ok r') : P r'.draft := by
  unfold next at went
  split at went
  next => exact plain_kept kept holds went
  next =>
    split at went
    next =>
      cases went
      exact holds
    next => exact long_kept kept holds went
    next => exact short_kept kept holds went
    next => exact plain_kept kept holds went

theorem readAll_kept {texts : List String} (kept : Draft.Kept P) (holds : P r.draft)
    (went : r.readAll texts = .ok r') : P r'.draft := by
  induction texts generalizing r with
  | nil =>
    cases went
    exact holds
  | cons text rest ih =>
    obtain ⟨between, first, later⟩ := of_bind_ok went
    exact ih (next_kept kept holds first) later

end Reading

namespace CommandLine

variable {argv : List String} {config : Config}

/-- A command line that is accepted ends in a draft of which everything holds that drafts keep. -/
theorem of_accepted {P : Draft → Prop} (kept : Draft.Kept P) (start : P .empty)
    (accepted : parse argv = .ok config) : ∃ d : Draft, P d ∧ d.finish = .ok config := by
  obtain ⟨r, went, finished⟩ := of_bind_ok accepted
  obtain ⟨d, settled, finish⟩ := of_bind_ok finished
  exact ⟨d, Reading.settle_kept kept (Reading.readAll_kept kept start went) settled, finish⟩

/-- A rate that was taken over is at least one. -/
def Rated (d : Draft) : Prop :=
  ∀ rate, d.cyclesPerSecond = some rate → 1 ≤ rate.toNat

theorem rated_kept : Draft.Kept Rated where
  option := by
    intro d d' name value rated set
    unfold Draft.setOption at set
    split at set
    next => cases set
    next =>
      cases name with
      | cyclesPerSecond =>
        obtain ⟨rate, read, same⟩ := of_bind_ok set
        cases same
        rintro _ ⟨⟩
        exact readRate_pos read
      | timerMode | scale =>
        obtain ⟨_, _, same⟩ := of_bind_ok set
        cases same
        exact rated
  rom := by
    intro d d' path rated set
    unfold Draft.setRom at set
    split at set
    next => cases set
    next =>
      cases set
      exact rated

theorem rate_pos (accepted : parse argv = .ok config) : 1 ≤ config.cyclesPerSecond.toNat := by
  obtain ⟨d, rated, finish⟩ := of_accepted rated_kept (fun _ none => by cases none) accepted
  unfold Draft.finish at finish
  split at finish
  next => cases finish
  next =>
    cases finish
    cases given : d.cyclesPerSecond with
    | none => exact (by decide : 1 ≤ Config.standardRate.toNat)
    | some rate => exact rated rate given

/-- The command line that sets nothing but a rate; any rate can be asked for with it. -/
def rating (rate : UInt32) : List String :=
  ["emuchip", "-c", Numeral.decimal rate.toNat, "a.ch8"]

/-- What it says. -/
def rated (rate : UInt32) : Config where
  rom := "a.ch8"
  cyclesPerSecond := rate
  timerMode := .perCycle
  scale := .x8

theorem parse_rating (rate : UInt32) (positive : 1 ≤ rate.toNat) :
    parse (rating rate) = .ok (rated rate) := by
  have option : Reading.start.next "-c" =
      .ok { Reading.start with held := .option .cyclesPerSecond none } := rfl
  have value : Reading.next { Reading.start with held := .option .cyclesPerSecond none }
      (Numeral.decimal rate.toNat) = .ok { Reading.start with
        held := .option .cyclesPerSecond (some (Nat.toDigits 10 rate.toNat)) } := by
    rw [Reading.next, if_neg (by decide), Argument.ofText_decimal]
    dsimp only [Reading.plain, Reading.start]
    rw [Numeral.decimal, String.toList_ofList]
  have rom : Reading.next { Reading.start with
        held := .option .cyclesPerSecond (some (Nat.toDigits 10 rate.toNat)) } "a.ch8" =
      .ok { Reading.start with
        draft := { Draft.empty with cyclesPerSecond := some rate }, held := .rom "a.ch8" } := by
    show Reading.hold _ _ = _
    -- the second plain argument takes over the rate that the first one left in hand
    simp [Reading.hold, Reading.settle, Reading.start, Draft.setOption, Draft.isSet, Draft.empty,
      readRate_toDigits rate positive, bind, Except.bind, pure, Except.pure]
  show (Reading.start.readAll ["-c", Numeral.decimal rate.toNat, "a.ch8"] >>= Reading.finish) = _
  simp only [Reading.readAll, option, value, rom, bind, Except.bind]
  rfl

end CommandLine

namespace Program

open CommandLine (parse rating rated parse_rating rate_pos)

variable {around : Surroundings} {argv : List String} {config : Config} {rom : List UInt8}

theorem run_overflow (accepted : parse argv = .ok config)
    (fast : 4294967265 < config.cyclesPerSecond.toNat) (read : around.read config.rom = .ok rom)
    (fits : rom.length ≤ Memory.maxRomSize) (opened : around.script.failsToOpen = false) :
    (run around argv).conclusion = .faulted .overflow := by
  have overflow := Config.cyclesPerFrame_overflow fast
  have prepared := prepared around config
  rw [run, accepted]
  dsimp only
  rw [runWith]
  generalize prepare around config = preparation at prepared ⊢
  cases prepared with
  | unreadable failed => cases failed.symm.trans read
  | tooLarge read' large =>
    cases read'.symm.trans read
    exact absurd fits (Nat.not_le_of_lt large)
  | notOpened _ _ refused => cases refused.symm.trans opened
  | faulted _ _ _ faulty =>
    cases overflow.symm.trans faulty
    rfl
  | ready _ _ _ rate => cases overflow.symm.trans rate

/-- The rate of a command line that is accepted is at least one, and it is rounded to a batch of at
    least one instruction unless it is one of the thirty largest that fit 32 bits.  On those the
    program stops at a fault, after it has read the file and opened the window.  A batch misses the
    rate by half a frame rate at most, and does not become smaller when the rate becomes larger. -/
theorem rate_rounds_unless_fastest (accepted : parse argv = .ok config) :
    1 ≤ config.cyclesPerSecond.toNat
      ∧ (config.cyclesPerFrame = .ok (max 1 ((config.cyclesPerSecond.toNat + 30) / 60)) ↔
          config.cyclesPerSecond.toNat ≤ 4294967265)
      ∧ (4294967265 < config.cyclesPerSecond.toNat →
          config.cyclesPerFrame = .error .overflow
            ∧ ∀ around rom, around.read config.rom = .ok rom → rom.length ≤ Memory.maxRomSize →
              around.script.failsToOpen = false →
              (run around argv).conclusion = .faulted .overflow)
      ∧ (∀ n, config.cyclesPerFrame = .ok n → 30 ≤ config.cyclesPerSecond.toNat →
          (60 * (n : Int) - config.cyclesPerSecond.toNat).natAbs ≤ 30)
      ∧ ∀ argv' config' n n', parse argv' = .ok config' → config.cyclesPerFrame = .ok n →
          config'.cyclesPerFrame = .ok n' →
          config.cyclesPerSecond.toNat ≤ config'.cyclesPerSecond.toNat → n ≤ n' := by
  refine ⟨rate_pos accepted, ?_, ?_, ?_, ?_⟩
  · rw [Config.cyclesPerFrame_eq_ok_iff]
    exact and_iff_left rfl
  · intro fast
    refine ⟨Config.cyclesPerFrame_overflow fast, ?_⟩
    intro around rom read fits opened
    exact run_overflow accepted fast read fits opened
  · intro n rounded enough
    exact Config.cyclesPerFrame_near rounded enough
  · intro _ config' n n' _ rounded rounded' faster
    exact Config.cyclesPerFrame_mono rounded rounded' faster

/-- A file of one instruction, in front of a window that opens. -/
def endless : Surroundings where
  read _ := .ok [0x12, 0x00]
  script := { Script.empty with frames := 4 }
  random := .arithmetic 0 0

theorem rate_rounds_unless_fastest_seven_hundred :
    (rated 700).cyclesPerFrame = .ok 12
      ∧ (run endless (rating 4294967295)).conclusion.exitStatus = 101 := by
  obtain ⟨_, rounded, _⟩ := rate_rounds_unless_fastest (parse_rating 700 (by decide))
  obtain ⟨_, _, overflow, _⟩ := rate_rounds_unless_fastest (parse_rating 4294967295 (by decide))
  refine ⟨rounded.mpr (by decide), ?_⟩
  obtain ⟨_, stops⟩ := overflow (by decide)
  rw [stops endless [0x12, 0x00] rfl (by decide) rfl]
  rfl

theorem not_every_accepted_rate_rounds :
    ¬ ∀ argv config, parse argv = .ok config →
      config.cyclesPerFrame = .ok (max 1 ((config.cyclesPerSecond.toNat + 30) / 60)) := by
  intro rounds
  have rounded := rounds _ _ (parse_rating 4294967295 (by decide))
  rw [Config.cyclesPerFrame_overflow (by decide)] at rounded
  cases rounded

end Program

end Chip8
