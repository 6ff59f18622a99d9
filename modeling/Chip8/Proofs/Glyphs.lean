import Chip8.Proofs.Drawing
import Chip8.Proofs.Holding
import Mathlib.Control.Monad.Basic

/-! # Drawing the built-in glyphs

The glyphs of the sixteen hexadecimal digits lie in front of the program, so loading a program does
not touch them, and a run touches them only if it stores there.  A program that points the index
register at a glyph and then draws five rows draws the glyph.

The non-trivial ingredient is `slice_glyph`: multiplying a digit by the length of a glyph and
cutting the product to an address finds the place where the font has that digit, with all five of
its rows inside memory.
-/

namespace Chip8

namespace Memory

def glyph (digit : Fin 16) : List UInt8 :=
  (font.drop (glyphLength.toNat * digit)).take glyphLength.toNat

/-- The font is where it was at the start. -/
def FontIntact (m : Memory) : Prop :=
  ∀ a < font.length, m.cells[a]? = font[a]?

theorem initial_fontIntact : initial.FontIntact := by
  intro a low
  have inside : a < size := Nat.lt_trans low (by decide)
  have covered : fontBase.toNat ≤ a ∧ a < fontBase.toNat + font.length :=
    ⟨Nat.zero_le a, by simpa [fontBase] using low⟩
  rw [initial, getElem?_store _ _ _ inside, if_pos covered]
  rfl

theorem FontIntact.store_program {m : Memory} (intact : m.FontIntact) (rom : List UInt8) :
    (m.store programStart.toNat rom).FontIntact := by
  intro a low
  have front : font.length < programStart.toNat := by decide
  rw [m.store_outside (.inl (Nat.lt_trans low front))]
  exact intact a low

theorem length_glyph (digit : Fin 16) : (glyph digit).length = glyphLength.toNat := by
  have rows : glyphLength.toNat = 5 := rfl
  have digits : font.length = 80 := rfl
  have bound := digit.isLt
  rw [glyph, List.length_take, List.length_drop, digits, rows]
  omega

theorem FontIntact.holds_glyph {m : Memory} (intact : m.FontIntact) (digit : Fin 16) :
    m.Holds (glyphLength.toNat * digit) (glyph digit) := by
  intro i reached
  rw [length_glyph] at reached
  have rows : glyphLength.toNat = 5 := rfl
  have digits : font.length = 80 := rfl
  have bound := digit.isLt
  have low : glyphLength.toNat * digit + i < font.length := by
    rw [rows] at reached ⊢
    omega
  rw [intact _ low, glyph, List.getElem?_take, if_pos reached, List.getElem?_drop]

theorem slice_glyph {m : Memory} (intact : m.FontIntact) (digit : Fin 16) :
    m.slice (glyphLength.toNat * digit) glyphLength.toNat = .ok (glyph digit) := by
  have rows : glyphLength.toNat = 5 := rfl
  have bound := digit.isLt
  have inside : glyphLength.toNat * digit + (glyph digit).length ≤ size := by
    rw [length_glyph, rows, size]
    omega
  have read := slice_of_holds inside (intact.holds_glyph digit)
  rwa [length_glyph] at read

end Memory

theorem IndexRegister.address_pointAt {addr : UInt16} (low : addr.toNat < Memory.size) :
    (pointAt addr).address = addr.toNat := by
  have mask : addressMask.toNat = 2 ^ 12 - 1 := rfl
  rw [pointAt, address, UInt16.toNat_and, UInt16.toNat_and, mask, Nat.and_two_pow_sub_one_eq_mod,
    Nat.and_two_pow_sub_one_eq_mod, Nat.mod_mod, Nat.mod_eq_of_lt low]

theorem address_pointGlyph (name : UInt8) :
    (IndexRegister.pointAt
        (Memory.fontBase + (name &&& 0xF).toUInt16 * Memory.glyphLength)).address
      = Memory.glyphLength.toNat * nibble name := by
  have digit := toNat_low name
  have length : Memory.glyphLength.toNat = 5 := rfl
  have base : Memory.fontBase.toNat = 0 := rfl
  have bound := (nibble name).isLt
  -- the product is at most 75, so neither the word nor the cut to an address loses anything
  have place : (Memory.fontBase + (name &&& 0xF).toUInt16 * Memory.glyphLength).toNat
      = Memory.glyphLength.toNat * nibble name := by
    rw [UInt16.toNat_add, UInt16.toNat_mul, UInt8.toNat_toUInt16, digit, length, base]
    omega
  rw [IndexRegister.address_pointAt, place]
  rw [place, length, Memory.size]
  omega

namespace Machine

variable {m : Machine} {keys : KeySource}

/-! ## Pointing at a glyph, and drawing it -/

theorem step_pointGlyph {z : UInt8}
    (pointed : (m.step keys).result = .ok (.executed (.pointGlyph z))) :
    (m.step keys).machine.state = .running ∧ (m.step keys).machine.memory = m.memory
      ∧ (m.step keys).machine.index.address = Memory.glyphLength.toNat * nibble (m.v z) := by
  obtain ⟨runs, _, _, flow, _, left⟩ := of_executed pointed
  obtain ⟨_, _, ticked⟩ :=
    (((m.refreshed keys).execute (.pointGlyph z)).machine.moved flow).cycleTimers_machine
  rw [left, ticked]
  exact ⟨runs, rfl, address_pointGlyph (m.v z)⟩

theorem step_unknown {w : UInt16} (passed : (m.step keys).result = .ok (.unknown w)) :
    (m.step keys).machine.state = m.state ∧ (m.step keys).machine.memory = m.memory
      ∧ (m.step keys).machine.index = m.index := by
  have step := m.stepped keys
  generalize (m.step keys).result = result, (m.step keys).machine = machine at passed step ⊢
  cases step with
  | executed =>
    generalize Instruction.decode m.word = ins at passed
    cases ins with
    | unknown w =>
      obtain ⟨_, _, ticked⟩ := cycleTimers_machine _
      rw [ticked]
      exact ⟨rfl, rfl, rfl⟩
    | _ => cases passed
  | halted | waiting | received => cases passed
  | ranOff | failed | faulted => cases passed

theorem step_draw {x y n : UInt8} {sprite : List UInt8} (keys : KeySource)
    (runs : m.state = .running) (fetched : m.fetch = .ok (.draw x y n))
    (read : m.memory.slice m.index.address n.toNat = .ok sprite) :
    (m.step keys).result = .ok (.executed (.draw x y n))
      ∧ (m.step keys).machine.display = (m.display.paint (m.v x) (m.v y) sprite).1 := by
  obtain ⟨inside, decoded⟩ := inside_of_fetch fetched
  have drawn := (Ends.drawn (m := m.refreshed keys) (x := x) (y := y) read).execute_eq
  have done : ((m.refreshed keys).execute (Instruction.decode m.word)).result = .ok .next := by
    rw [decoded, drawn]
    rfl
  obtain ⟨result, left⟩ := (Stepped.executed runs inside done).step_eq
  rw [decoded] at result left
  obtain ⟨_, _, ticked⟩ :=
    (((m.refreshed keys).execute (.draw x y n)).machine.moved .next).cycleTimers_machine
  rw [result, left, ticked, drawn]
  exact ⟨rfl, rfl⟩

/-! ## Histories -/

theorem after_unknown {ops : List Operation} (driving : ∀ op ∈ ops, op.Driving)
    (passed : ∀ moment ∈ m.moments ops, ∃ w, moment.result = .ok (.unknown w)) :
    (m.after ops).state = m.state ∧ (m.after ops).memory = m.memory
      ∧ (m.after ops).index = m.index := by
  refine after_preserves
    (P := fun m' => m'.state = m.state ∧ m'.memory = m.memory ∧ m'.index = m.index)
    ?_ ?_ driving passed ⟨rfl, rfl, rfl⟩
  · rintro moment ⟨w, passed⟩ ⟨state, memory, index⟩
    obtain ⟨state', memory', index'⟩ := step_unknown passed
    exact ⟨state'.trans state, memory'.trans memory, index'.trans index⟩
  · intro _ _ _ _ _ kept
    exact kept

/-- Whenever the machine points at the glyph of a digit and the next instruction, behind words that
    are passed over, draws five rows, then it does draw them: the rows of that glyph, pixel by
    pixel, and nothing else. -/
def ShowsDigits (m : Machine) : Prop :=
  ∀ keys z, (m.step keys).result = .ok (.executed (.pointGlyph z)) →
    ∀ idle, (∀ op ∈ idle, op.Driving) →
      (∀ moment ∈ (m.step keys).machine.moments idle, ∃ w, moment.result = .ok (.unknown w)) →
      ∀ m', (m.step keys).machine.after idle = m' →
        ∀ x y, m'.fetch = .ok (.draw x y 5) → ∀ keys',
          (m'.step keys').result = .ok (.executed (.draw x y 5))
            ∧ ∀ p, (m'.step keys').machine.display.isOn p
                = (m'.display.isOn p
                    ^^ (Drawing.mk (m'.v x) (m'.v y) (Memory.glyph (nibble (m.v z)))).covers p)

theorem showsDigits_of_fontIntact (intact : m.memory.FontIntact) : m.ShowsDigits := by
  intro keys z pointed idle driving passed m' reached x y fetched keys'
  obtain ⟨runs, memory, index⟩ := step_pointGlyph pointed
  -- what is passed over leaves the index register on the glyph
  obtain ⟨state, memory', index'⟩ := after_unknown driving passed
  rw [reached] at state memory' index'
  have read : m'.memory.slice m'.index.address Memory.glyphLength.toNat
      = .ok (Memory.glyph (nibble (m.v z))) := by
    rw [memory', memory, index', index]
    exact Memory.slice_glyph intact _
  obtain ⟨result, display⟩ := step_draw keys' (state.trans runs) fetched read
  refine ⟨result, fun p => ?_⟩
  rw [display]
  exact FrameBuffer.isOn_paint m'.display ⟨m'.v x, m'.v y, _⟩ p

/-- Memory changes only where the program stores.  Whatever program a fresh machine was given, and
    however it is driven then, a cell that differs from what was loaded is covered by a store that
    was executed, of the digits of a register or of a block of registers.  So as long as the program
    stores nothing on the font, the font is what it was, and a digit that the program points at and
    draws is drawn as the font has it. -/
theorem no_stray_writes (random : RandomSource) (rom : List UInt8) (fits : rom.length ≤ 3584) :
    ∃ m₀ notices, (fresh random).loadRom rom = .ok (m₀, notices)
      ∧ ∀ ops, (∀ op ∈ ops, op.Driving) →
        (∀ a, (m₀.after ops).memory.cells[a]? ≠ m₀.memory.cells[a]? →
            ∃ moment ∈ m₀.moments ops, moment.writes a = true)
          ∧ ((∀ moment ∈ m₀.moments ops, ∀ a < 0x50, moment.writes a = false) →
              (m₀.after ops).memory.FontIntact ∧ (m₀.after ops).ShowsDigits) := by
  refine ⟨_, _, loadRom_fits fits, fun ops driving => ⟨?_, ?_⟩⟩
  · intro a changed
    exact writes_of_changed driving changed
  · intro spared
    suffices intact : Memory.FontIntact _ from ⟨intact, showsDigits_of_fontIntact intact⟩
    intro a low
    rw [after_cell driving fun moment member => spared moment member a low]
    exact Memory.initial_fontIntact.store_program rom a low

/-- A program that stores the digits of 123 and then draws the glyph of its low half over the right
    edge, with a word that is no instruction in between. -/
def scribble : List UInt8 :=
  [0xA3, 0x00, 0x60, 0x7B, 0xF0, 0x33, 0x61, 0x3E, 0xF0, 0x29, 0x81, 0x28, 0xD1, 0x25]

def scribbling : Machine :=
  { fresh (.arithmetic 0 0) with memory := Memory.initial.store 0x200 scribble }

/-- The machine in front of pointing at the glyph. -/
def scribbled : Machine :=
  scribbling.after [.run 4 fun _ => false]

/-- The machine in front of drawing it. -/
def pointed : Machine :=
  (scribbled.step fun _ => true).machine.after [.takeFrame, .step fun _ => false]

theorem scribble_shows_eleven :
    (fresh (.arithmetic 0 0)).loadRom scribble = .ok (scribbling, [.romLoaded 14])
      ∧ scribbled.memory.cells[0x302]? ≠ scribbling.memory.cells[0x302]?
      ∧ (∃ moment ∈ scribbling.moments [.run 4 fun _ => false], moment.writes 0x302 = true)
      ∧ scribbled.memory.FontIntact
      ∧ ∀ keys, (pointed.step keys).result = .ok (.executed (.draw 1 2 5))
          ∧ (∀ p, (pointed.step keys).machine.display.isOn p
              = (pointed.display.isOn p
                  ^^ (Drawing.mk 62 0 [0xE0, 0x90, 0xE0, 0x90, 0xE0]).covers p))
          ∧ (pointed.step keys).machine.display.isOn ⟨63, 2⟩ = true
          ∧ (pointed.step keys).machine.display.isOn ⟨63, 3⟩ = false
          ∧ (pointed.step keys).machine.display.isOn ⟨0, 2⟩ = false := by
  have loaded : (fresh (.arithmetic 0 0)).loadRom scribble = .ok (scribbling, [.romLoaded 14]) :=
    rfl
  have reached : scribbling.after [.run 4 fun _ => false] = scribbled := rfl
  have driving : ∀ op ∈ [Operation.run 4 fun _ => false], op.Driving := by
    simp [Operation.Driving]
  have idle : ∀ op ∈ [Operation.takeFrame, .step fun _ => false], op.Driving := by
    simp [Operation.Driving]
  have goes : scribbled.memory.cells[0x302]? ≠ scribbling.memory.cells[0x302]?
      ∧ Memory.glyph (nibble (scribbled.v 0)) = [0xE0, 0x90, 0xE0, 0x90, 0xE0]
      ∧ pointed.v 1 = 62 ∧ pointed.v 2 = 0 ∧ pointed.display = .blank
      ∧ (scribbled.step fun _ => true).result = .ok (.executed (.pointGlyph 0))
      ∧ (∀ moment ∈ (scribbled.step fun _ => true).machine.moments
          [.takeFrame, .step fun _ => false], moment.result = .ok (.unknown 0x8128))
      ∧ pointed.fetch = .ok (.draw 1 2 5)
      ∧ ∀ moment ∈ scribbling.moments [.run 4 fun _ => false], ∀ a < 0x50,
          moment.writes a = false := by
    decide +kernel
  obtain ⟨changed, glyph, column, row, blank, pointing, passed, fetched, spared⟩ := goes
  obtain ⟨m₀, notices, loaded', stored⟩ := no_stray_writes (.arithmetic 0 0) scribble (by decide)
  rw [loaded] at loaded'
  cases loaded'
  obtain ⟨covered, kept⟩ := stored _ driving
  rw [reached] at covered kept
  obtain ⟨intact, shows⟩ := kept spared
  have drawn := shows _ 0 pointing _ idle (fun moment member => ⟨_, passed moment member⟩) pointed
    rfl 1 2 fetched
  rw [glyph, column, row] at drawn
  refine ⟨loaded, changed, covered 0x302 changed, intact, fun keys => ?_⟩
  obtain ⟨result, pixels⟩ := drawn keys
  refine ⟨result, pixels, ?_, ?_, ?_⟩
  · rw [pixels, blank]
    decide
  · rw [pixels, blank]
    decide
  · rw [pixels, blank]
    decide

end Machine

end Chip8
