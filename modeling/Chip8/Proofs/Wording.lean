import Chip8.Proofs.Rating
import Mathlib.Data.List.Nodup

/-! # Wording a command line

Whatever a run is to be told can be said in many ways: the path of the program and the options come
in any order, and each option is spelled with its letter or its name, its value joined to it or
behind it.  All of these command lines are accepted, and they all say the same.

The non-trivial ingredient is `readAll_arguments`: between two phrases a reading has come to a draft,
and a phrase that fills a vacant slot of the draft takes it to the draft with that slot filled, so
what is read from left to right depends on the phrases and not on how they were spelled.
-/

namespace Chip8

/-! ## Options in words -/

namespace OptionName

/-- The letter behind one dash. -/
def letter : OptionName → Char
  | .cyclesPerSecond => 'c'
  | .timerMode => 't'
  | .scale => 's'

/-- The name behind two dashes. -/
def word : OptionName → String
  | .cyclesPerSecond => "cycles-per-second"
  | .timerMode => "timer-mode"
  | .scale => "scale"

end OptionName

/-- How an option and its value are written. -/
inductive Spelling where
  /-- `-c 60` -/
  | letter
  /-- `-c60` -/
  | letterJoined
  /-- `-c=60` -/
  | letterEquals
  /-- `--cycles-per-second 60` -/
  | word
  /-- `--cycles-per-second=60` -/
  | wordEquals
  deriving DecidableEq, Repr, Inhabited

def Spelling.arguments (name : OptionName) (value : String) : Spelling → List String
  | .letter => ["-" ++ String.singleton name.letter, value]
  | .letterJoined => ["-" ++ String.singleton name.letter ++ value]
  | .letterEquals => ["-" ++ String.singleton name.letter ++ "=" ++ value]
  | .word => ["--" ++ name.word, value]
  | .wordEquals => ["--" ++ name.word ++ "=" ++ value]

/-- An option and what it is set to. -/
inductive Choice where
  | cyclesPerSecond (rate : UInt32)
  | timerMode (mode : TimerMode)
  | scale (factor : Scale)
  deriving DecidableEq, Repr

namespace Choice

def name : Choice → OptionName
  | .cyclesPerSecond _ => .cyclesPerSecond
  | .timerMode _ => .timerMode
  | .scale _ => .scale

/-- The value, as it is written. -/
def value : Choice → String
  | .cyclesPerSecond rate => Numeral.decimal rate.toNat
  | .timerMode mode => mode.word
  | .scale factor => factor.word

end Choice

/-- One thing that a command line says. -/
inductive Phrase where
  | rom (path : String)
  | choice (c : Choice)
  deriving DecidableEq, Repr

namespace Phrase

/-- The arguments of a phrase, if each option is spelled in some way. -/
def arguments (spelled : OptionName → Spelling) : Phrase → List String
  | .rom path => [path]
  | .choice c => (spelled c.name).arguments c.name c.value

/-- What the phrase is about: an option, or the program. -/
def slot : Phrase → Option OptionName
  | .rom _ => none
  | .choice c => some c.name

/-- A path is not empty and does not look like an option, and a rate is not zero. -/
def Allowed : Phrase → Prop
  | .rom path => path ≠ "" ∧ path.toList.head? ≠ some '-'
  | .choice (.cyclesPerSecond rate) => 1 ≤ rate.toNat
  | .choice _ => True

end Phrase

/-- What a run is to be told: the program, and those of the options that are to be set. -/
structure Demand where
  rom : String
  cyclesPerSecond : Option UInt32
  timerMode : Option TimerMode
  scale : Option Scale
  deriving DecidableEq, Repr

namespace Demand

def phrases (d : Demand) : List Phrase :=
  .rom d.rom ::
    ((d.cyclesPerSecond.map Choice.cyclesPerSecond).toList
      ++ (d.timerMode.map Choice.timerMode).toList
      ++ (d.scale.map Choice.scale).toList).map .choice

/-- The configuration, with the standard values of the options that are left out. -/
def config (d : Demand) : Config where
  rom := d.rom
  cyclesPerSecond := d.cyclesPerSecond.getD 60
  timerMode := d.timerMode.getD .perCycle
  scale := d.scale.getD .x8

end Demand

/-! ## Arguments by shape -/

theorem Choice.toList_rate (rate : UInt32) :
    (Choice.cyclesPerSecond rate).value.toList = Nat.toDigits 10 rate.toNat :=
  String.toList_ofList

/-- Values begin with a letter or a digit, so they look like nothing else. -/
theorem Choice.value_eq_cons (c : Choice) :
    ∃ first rest, c.value.toList = first :: rest ∧ first ≠ '-' ∧ first ≠ '=' := by
  cases c with
  | cyclesPerSecond rate =>
    rw [toList_rate]
    cases digits : Nat.toDigits 10 rate.toNat with
    | nil => exact absurd digits Nat.toDigits_ne_nil
    | cons first rest =>
      refine ⟨first, rest, rfl, ?_, ?_⟩
      · rintro rfl
        exact Numeral.toDigits_ne_cons (by decide) _ _ digits
      · rintro rfl
        exact Numeral.toDigits_ne_cons (by decide) _ _ digits
  | timerMode mode => cases mode <;> exact ⟨_, _, rfl, by decide, by decide⟩
  | scale factor => cases factor <;> exact ⟨_, _, rfl, by decide, by decide⟩

namespace Argument

variable {text : String} {rest : List Char}

theorem ofText_letter (name : OptionName) (same : text.toList = '-' :: name.letter :: rest) :
    ofText text = .short name.letter rest := by
  rw [ofText, same]
  cases name <;> rfl

theorem ofText_word (name : OptionName)
    (same : text.toList = '-' :: '-' :: (name.word.toList ++ rest)) :
    ofText text = .long (.ofChars (name.word.toList ++ rest)) := by
  rw [ofText, same]
  -- behind the dashes there is at least the name
  cases name <;> rfl

theorem ofText_value (c : Choice) : ofText c.value = .plain c.value := by
  obtain ⟨first, rest, same, noDash, _⟩ := c.value_eq_cons
  apply ofText_plain
  rw [same, List.head?_cons]
  exact fun dash => noDash (Option.some.inj dash)

theorem attached?_value (c : Choice) : attached? c.value.toList = some c.value.toList := by
  obtain ⟨first, rest, same, _, noSign⟩ := c.value_eq_cons
  rw [same]
  unfold attached?
  split
  next none => cases none
  next same => exact absurd (List.cons.inj same).1 noSign
  next => rfl

end Argument

theorem Switch.ofLetter?_letter (name : OptionName) :
    ofLetter? name.letter = some (.option name) := by
  cases name <;> rfl

theorem Switch.ofName?_word (name : OptionName) :
    ofName? name.word.toList = some (.option name) := by
  cases name <;> decide

theorem OptionName.word_notMem (name : OptionName) : '=' ∉ name.word.toList := by
  cases name <;> decide

/-! ## Drafts -/

namespace Draft

/-- The draft with a slot filled as a phrase says. -/
def take (d : Draft) : Phrase → Draft
  | .rom path => { d with rom := some path }
  | .choice (.cyclesPerSecond rate) => { d with cyclesPerSecond := some rate }
  | .choice (.timerMode mode) => { d with timerMode := some mode }
  | .choice (.scale factor) => { d with scale := some factor }

/-- Whether something was said about an option, or the program. -/
def filled (d : Draft) : Option OptionName → Bool
  | none => d.rom.isSome
  | some name => d.isSet name

variable {d : Draft} {p q : Phrase}

theorem filled_empty (slot : Option OptionName) : empty.filled slot = false := by
  rcases slot with _ | ⟨⟩ | ⟨⟩ | ⟨⟩ <;> rfl

theorem filled_take {slot : Option OptionName} (other : p.slot ≠ slot) :
    (d.take p).filled slot = d.filled slot := by
  rcases p with _ | ⟨_⟩ | ⟨_⟩ | ⟨_⟩ <;> rcases slot with _ | ⟨⟩ | ⟨⟩ | ⟨⟩ <;>
    first | rfl | exact absurd rfl other

theorem take_take (differ : p.slot ≠ q.slot) : (d.take p).take q = (d.take q).take p := by
  rcases p with _ | ⟨_⟩ | ⟨_⟩ | ⟨_⟩ <;> rcases q with _ | ⟨_⟩ | ⟨_⟩ | ⟨_⟩ <;>
    first | rfl | exact absurd rfl differ

theorem rom_of_setOption {d' : Draft} {name : OptionName} {value : List Char}
    (set : d.setOption name value = .ok d') : d'.rom = d.rom := by
  rw [setOption.eq_def] at set
  split at set
  next => cases set
  next =>
    cases name with
    | cyclesPerSecond | timerMode | scale =>
      obtain ⟨_, _, same⟩ := of_bind_ok set
      cases same
      rfl

theorem rom_of_setRom {d' : Draft} {path : String} (set : d.setRom path = .ok d') :
    d'.rom = some path := by
  unfold setRom at set
  split at set
  next => cases set
  next =>
    cases set
    rfl

/-- A value is read back from how it is written. -/
theorem setOption_value {c : Choice} (allowed : (Phrase.choice c).Allowed)
    (vacant : d.filled (some c.name) = false) :
    d.setOption c.name c.value.toList = .ok (d.take (.choice c)) := by
  have unset : ¬ d.isSet c.name = true := ne_true_of_eq_false vacant
  rw [setOption.eq_def, if_neg unset]
  cases c with
  | cyclesPerSecond rate =>
    rw [Choice.toList_rate]
    dsimp only [Choice.name]
    rw [readRate_toDigits rate allowed]
    rfl
  | timerMode mode => cases mode <;> rfl
  | scale factor => cases factor <;> rfl

end Draft

namespace Reading

/-- Between two phrases: what was read so far comes to a draft. -/
structure Reached (r : Reading) (d : Draft) : Prop where
  settled : r.settle = .ok d
  reads : r.optionsEnded = false

/-- What was read is accepted, and comes to a draft. -/
def Leads (result : Except Refusal Reading) (d : Draft) : Prop :=
  ∃ r, result = .ok r ∧ r.Reached d

variable {r : Reading} {d : Draft} {c : Choice}

theorem reached_start : start.Reached .empty where
  settled := rfl
  reads := rfl

theorem readAll_append (r : Reading) (xs ys : List String) :
    r.readAll (xs ++ ys) = r.readAll xs >>= fun r => r.readAll ys := by
  induction xs generalizing r with
  | nil => rfl
  | cons x xs ih =>
    show (r.next x >>= fun r => r.readAll (xs ++ ys)) = (r.next x >>= fun r => r.readAll xs) >>= _
    cases r.next x with
    | error => rfl
    | ok between => exact ih between

theorem readAll_singleton (r : Reading) (text : String) : r.readAll [text] = r.next text := by
  show (r.next text >>= fun r => .ok r) = _
  cases r.next text <;> rfl

theorem Reached.hold_eq (reached : r.Reached d) (held : Held) :
    r.hold held = .ok { r with draft := d, held } := by
  rw [hold, reached.settled]
  rfl

theorem Reached.hasRom_eq (reached : r.Reached d) : r.hasRom = d.rom.isSome := by
  obtain ⟨draft, held, _⟩ := r
  have settled := reached.settled
  cases held with
  | nothing =>
    cases settled
    rfl
  | rom path =>
    rw [Draft.rom_of_setRom settled]
    rfl
  | option name value =>
    cases value with
    | none => cases settled
    | some value =>
      rw [Draft.rom_of_setOption settled]
      rfl

/-! ## One phrase -/

theorem next_plain (reads : r.optionsEnded = false) {text : String}
    (shape : Argument.ofText text = .plain text) : r.next text = r.plain text := by
  rw [next, reads, shape]
  rfl

/-- An option that waits for its value would not have settled. -/
theorem Reached.plain_eq (reached : r.Reached d) (text : String) :
    r.plain text = if r.hasRom then .error .unknownArgument else r.hold (.rom text) := by
  unfold plain
  split
  next waits _ =>
    have settled := reached.settled
    rw [settle, waits] at settled
    cases settled
  next => rfl

theorem Reached.rom {path : String} (reached : r.Reached d) (vacant : d.filled none = false)
    (allowed : (Phrase.rom path).Allowed) : Leads (r.readAll [path]) (d.take (.rom path)) := by
  have unnamed : ¬ r.hasRom = true := by
    rw [reached.hasRom_eq]
    exact ne_true_of_eq_false vacant
  refine ⟨{ r with draft := d, held := .rom path }, ?_, ?_, reached.reads⟩
  · rw [readAll_singleton, next_plain reached.reads (Argument.ofText_plain allowed.2),
      reached.plain_eq, if_neg unnamed, reached.hold_eq]
  · show d.setRom path = _
    rw [Draft.setRom, if_neg allowed.1]
    rfl

/-- An option whose value is an argument of its own. -/
theorem Reached.separate (reached : r.Reached d) (vacant : d.filled (some c.name) = false)
    (allowed : (Phrase.choice c).Allowed) :
    Leads (r.switch (.option c.name) none >>= fun r => r.readAll [c.value])
      (d.take (.choice c)) := by
  have waits : r.switch (.option c.name) none =
      .ok { r with draft := d, held := .option c.name none } := reached.hold_eq _
  refine ⟨{ r with draft := d, held := .option c.name (some c.value.toList) }, ?_, ?_,
    reached.reads⟩
  · rw [waits]
    show Reading.readAll _ _ = _
    rw [readAll_singleton,
      next_plain (r := { r with draft := d, held := _ }) reached.reads (Argument.ofText_value c)]
    show Reading.plain _ _ = _
    unfold plain
    dsimp only
    rw [reached.reads]
  · exact Draft.setOption_value allowed vacant

/-- An option whose value is joined to it. -/
theorem Reached.joined (reached : r.Reached d) (vacant : d.filled (some c.name) = false)
    (allowed : (Phrase.choice c).Allowed) :
    Leads (r.switch (.option c.name) (some c.value.toList)) (d.take (.choice c)) := by
  refine ⟨{ r with draft := d.take (.choice c), held := .nothing }, ?_, rfl, reached.reads⟩
  rw [switch, reached.settled]
  show (d.setOption c.name c.value.toList >>= _) = _
  rw [Draft.setOption_value allowed vacant]
  rfl

section

variable {text : String} {value : Option (List Char)}

theorem next_letter (reads : r.optionsEnded = false) (name : OptionName) (rest : List Char)
    (same : text.toList = '-' :: name.letter :: rest) :
    r.next text = r.switch (.option name) (Argument.attached? rest) := by
  rw [next, reads, Argument.ofText_letter name same]
  show r.short name.letter rest = _
  rw [short, Switch.ofLetter?_letter]

theorem next_word (reads : r.optionsEnded = false) (name : OptionName) (rest : List Char)
    (same : text.toList = '-' :: '-' :: (name.word.toList ++ rest))
    (setting : Setting.ofChars (name.word.toList ++ rest) = { name := name.word.toList, value }) :
    r.next text = r.switch (.option name) value := by
  rw [next, reads, Argument.ofText_word name same, setting]
  show r.long { name := name.word.toList, value } = _
  rw [long, Switch.ofName?_word]

end

theorem Reached.choice (reached : r.Reached d) (vacant : d.filled (some c.name) = false)
    (allowed : (Phrase.choice c).Allowed) (spelling : Spelling) :
    Leads (r.readAll (spelling.arguments c.name c.value)) (d.take (.choice c)) := by
  have reads := reached.reads
  have given : Setting.ofChars (c.name.word.toList ++ '=' :: c.value.toList) =
      { name := c.name.word.toList, value := some c.value.toList } :=
    Setting.ofChars_append _ c.name.word_notMem
  have lone : Setting.ofChars (c.name.word.toList ++ []) =
      { name := c.name.word.toList, value := none } := by
    rw [List.append_nil]
    exact Setting.ofChars_of_notMem c.name.word_notMem
  cases spelling with
  | letter =>
    show Leads (r.next _ >>= fun r => r.readAll [c.value]) _
    rw [next_letter reads c.name [] (by simp)]
    exact reached.separate vacant allowed
  | letterJoined =>
    show Leads (r.readAll [_]) _
    rw [readAll_singleton, next_letter reads c.name c.value.toList (by simp),
      Argument.attached?_value]
    exact reached.joined vacant allowed
  | letterEquals =>
    show Leads (r.readAll [_]) _
    rw [readAll_singleton,
      next_letter reads c.name ('=' :: c.value.toList) (by simp)]
    exact reached.joined vacant allowed
  | word =>
    show Leads (r.next _ >>= fun r => r.readAll [c.value]) _
    rw [next_word reads c.name [] (by simp) lone]
    exact reached.separate vacant allowed
  | wordEquals =>
    show Leads (r.readAll [_]) _
    rw [readAll_singleton, next_word reads c.name ('=' :: c.value.toList) (by simp) given]
    exact reached.joined vacant allowed

/-! ## All phrases -/

theorem Reached.phrase {p : Phrase} (reached : r.Reached d) (vacant : d.filled p.slot = false)
    (allowed : p.Allowed) (spelled : OptionName → Spelling) :
    Leads (r.readAll (p.arguments spelled)) (d.take p) := by
  cases p with
  | rom path => exact reached.rom vacant allowed
  | choice c => exact reached.choice vacant allowed (spelled c.name)

theorem Leads.bind {result : Except Refusal Reading} {f : Reading → Except Refusal Reading}
    {d' : Draft} (leads : Leads result d) (next : ∀ r, r.Reached d → Leads (f r) d') :
    Leads (result >>= f) d' := by
  obtain ⟨r, rfl, reached⟩ := leads
  exact next r reached

theorem readAll_arguments (spelled : OptionName → Spelling) {phrases : List Phrase}
    (reached : r.Reached d) (vacant : ∀ p ∈ phrases, d.filled p.slot = false)
    (distinct : (phrases.map Phrase.slot).Nodup) (allowed : ∀ p ∈ phrases, p.Allowed) :
    Leads (r.readAll (phrases.flatMap (·.arguments spelled))) (phrases.foldl Draft.take d) := by
  induction phrases generalizing r d with
  | nil => exact ⟨r, rfl, reached⟩
  | cons p phrases ih =>
    obtain ⟨fresh, distinct⟩ := List.nodup_cons.mp distinct
    obtain ⟨vacantFirst, vacant⟩ := List.forall_mem_cons.mp vacant
    obtain ⟨allowedFirst, allowed⟩ := List.forall_mem_cons.mp allowed
    rw [List.flatMap_cons, readAll_append]
    refine (reached.phrase vacantFirst allowedFirst spelled).bind fun r' reached' => ?_
    refine ih reached' ?_ distinct allowed
    -- what `p` says fills no other slot than its own
    intro q member
    have other : p.slot ≠ q.slot := fun same => fresh (List.mem_map.mpr ⟨q, member, same.symm⟩)
    rw [Draft.filled_take other, vacant q member]

end Reading

namespace Demand

variable {d : Demand} {phrases : List Phrase}

/-- Each of the phrases is about something else. -/
theorem nodup_slots (order : phrases.Perm d.phrases) : (phrases.map Phrase.slot).Nodup := by
  rw [(order.map Phrase.slot).nodup_iff]
  obtain ⟨_, rate, mode, factor⟩ := d
  cases rate <;> cases mode <;> cases factor <;> simp [Demand.phrases, Phrase.slot, Choice.name]

theorem foldl_phrases (d : Demand) : d.phrases.foldl Draft.take .empty =
    { rom := some d.rom, cyclesPerSecond := d.cyclesPerSecond, timerMode := d.timerMode,
      scale := d.scale } := by
  obtain ⟨_, rate, mode, factor⟩ := d
  cases rate <;> cases mode <;> cases factor <;> rfl

theorem allowed_of_mem {p : Phrase} (named : d.rom ≠ "") (undashed : d.rom.toList.head? ≠ some '-')
    (positive : ∀ rate, d.cyclesPerSecond = some rate → 1 ≤ rate.toNat) (member : p ∈ d.phrases) :
    p.Allowed := by
  rcases List.mem_cons.mp member with rfl | member
  · exact ⟨named, undashed⟩
  · obtain ⟨c, member, rfl⟩ := List.mem_map.mp member
    cases c with
    | cyclesPerSecond rate => exact positive rate (by simpa using member)
    | timerMode | scale => trivial

/-- Phrases about different things can be taken in any order. -/
theorem foldl_take_of_perm (order : phrases.Perm d.phrases) :
    phrases.foldl Draft.take .empty = d.phrases.foldl Draft.take .empty := by
  refine order.foldl_eq' (fun p first q second draft => ?_) _
  by_cases same : p.slot = q.slot
  · rw [List.inj_on_of_nodup_map (nodup_slots order) first second same]
  · exact Draft.take_take same

end Demand

namespace CommandLine

/-- A command line is accepted, and gives the configuration that was asked for, whatever the order
    of the program and the options and however each option is spelled; what is left out has its
    standard value.  And no command line that is accepted gives a rate below one. -/
theorem parse_of_any_wording :
    (∀ (d : Demand) (name : String) (spelled : OptionName → Spelling) (phrases : List Phrase),
        d.rom ≠ "" → d.rom.toList.head? ≠ some '-' →
        (∀ rate, d.cyclesPerSecond = some rate → 1 ≤ rate.toNat) →
        phrases.Perm d.phrases →
        parse (name :: phrases.flatMap (·.arguments spelled)) = .ok d.config)
      ∧ ∀ argv config, parse argv = .ok config → 1 ≤ config.cyclesPerSecond.toNat := by
  refine ⟨?_, fun argv config => rate_pos⟩
  intro d name spelled phrases named undashed positive order
  have allowed : ∀ p ∈ phrases, p.Allowed := fun p member =>
    Demand.allowed_of_mem named undashed positive (order.mem_iff.mp member)
  obtain ⟨r, went, reached⟩ := Reading.readAll_arguments spelled Reading.reached_start
    (fun p _ => Draft.filled_empty p.slot) (Demand.nodup_slots order) allowed
  show (Reading.start.readAll (phrases.flatMap _) >>= fun r => r.finish) = _
  rw [went]
  show (r.settle >>= fun draft => draft.finish) = _
  rw [reached.settled, Demand.foldl_take_of_perm order, d.foldl_phrases]
  rfl

/-- A program whose name is a number, the largest rate, and no scale. -/
def hasty : Demand where
  rom := "700"
  cyclesPerSecond := some 4294967295
  timerMode := some .realtime
  scale := none

/-- The timer mode spelled out in two arguments, and the rate at its letter. -/
def hastily : OptionName → Spelling
  | .cyclesPerSecond => .letterJoined
  | .timerMode => .word
  | .scale => .letter

theorem parse_hasty :
    (hasty.rom ≠ "" ∧ hasty.rom.toList.head? ≠ some '-'
      ∧ ∀ rate, hasty.cyclesPerSecond = some rate → 1 ≤ rate.toNat)
    ∧ parse ["emuchip", "--timer-mode", "realtime", "700", "-c4294967295"] = .ok
        { rom := "700", cyclesPerSecond := 4294967295, timerMode := .realtime, scale := .x8 } := by
  obtain ⟨accepted, _⟩ := parse_of_any_wording
  have named : hasty.rom ≠ "" := by decide
  have undashed : hasty.rom.toList.head? ≠ some '-' := by decide
  have positive : ∀ rate, hasty.cyclesPerSecond = some rate → 1 ≤ rate.toNat := by
    rintro _ ⟨⟩
    decide
  have order : [Phrase.choice (.timerMode .realtime), .rom "700",
      .choice (.cyclesPerSecond 4294967295)].Perm hasty.phrases := by decide
  exact ⟨⟨named, undashed, positive⟩,
    accepted hasty "emuchip" hastily _ named undashed positive order⟩

end CommandLine

end Chip8
