import Chip8.Proofs.Cropping
import Chip8.Proofs.Flagging
import Chip8.Proofs.Glyphs

/-! # Drawing a sprite and erasing it

Drawing takes the bytes of a sprite from memory and its place from two registers, as these are
before the flag is written, and the flag says afterwards whether the sprite went over a pixel that
was on.  A second drawing at the same place undoes the first one, and one of the two sets the flag
unless the sprite has no bit on the grid.

The second drawing is at the same place only if neither register is the flag register: a sprite that
is placed by the flag moves away from where it was drawn.
-/

namespace Chip8

open FrameBuffer (width height)
open Plane (spriteAt)

/-- Some bit of the sprite lies on the grid. -/
def Plane.Visible (x y : Nat) (sprite : List UInt8) : Prop :=
  ∃ column < width, ∃ row < height, spriteAt x y sprite column row = true

/-- Some bit of the sprite lies on a pixel that is on. -/
def FrameBuffer.Struck (fb : FrameBuffer) (x y : Nat) (sprite : List UInt8) : Prop :=
  ∃ column < width, ∃ row < height,
    fb.isSet column row = true ∧ spriteAt x y sprite column row = true

namespace Machine

/-- The second machine is the first one with a sprite drawn on its display. -/
structure Drawn (m : Machine) (x y : Nat) (sprite : List UInt8) (m' : Machine) : Prop where
  pixel : ∀ column < width, ∀ row < height, m'.display.isSet column row
    = (m.display.isSet column row ^^ spriteAt x y sprite column row)
  flagged : m.display.Struck x y sprite → m'.v Registers.flag = 1
  unflagged : ¬ m.display.Struck x y sprite → m'.v Registers.flag = 0
  redraw : m'.redraw = true
  rest : ∀ part ∉ [Part.register (nibble Registers.flag), .display, .redraw], part.Same m m'

variable {m m' m'' : Machine} {x y : Nat} {sprite : List UInt8}

/-! ## One drawing -/

theorem execute_draw (m : Machine) (x y n : UInt8) (length : sprite.length = n.toNat)
    (inside : m.index.address + n.toNat ≤ Memory.size)
    (held : m.memory.Holds m.index.address sprite) :
    m.execute (.draw x y n) = .done .next { m with
      display := (m.display.paint (m.v x) (m.v y) sprite).1
      registers := m.registers.setFlag (m.display.paint (m.v x) (m.v y) sprite).2
      redraw := true } := by
  rw [← length] at inside
  have read := Memory.slice_of_holds inside held
  rw [length] at read
  exact (Ends.drawn read).execute_eq

theorem drawn_of_execute (m : Machine) (x y n : UInt8) (length : sprite.length = n.toNat)
    (inside : m.index.address + n.toNat ≤ Memory.size)
    (held : m.memory.Holds m.index.address sprite) :
    ∃ m', m.execute (.draw x y n) = .done .next m'
      ∧ m.Drawn (m.v x).toNat (m.v y).toNat sprite m' := by
  have executed := execute_draw m x y n length inside held
  have struck := FrameBuffer.paint_collides_iff m.display (m.v x) (m.v y) sprite
  have flag (on : Bool) : (m.registers.setFlag on).get Registers.flag = if on then 1 else 0 := by
    rw [Registers.get_setFlag, if_pos rfl]
  refine ⟨_, executed, ?_, ?_, ?_, rfl, ?_⟩
  · intro column inside row below
    exact FrameBuffer.isSet_paint m.display (m.v x) (m.v y) sprite inside below
  · intro hit
    exact (flag _).trans (if_pos (struck.mpr hit))
  · intro missed
    exact (flag _).trans (if_neg (mt struck.mp missed))
  · intro part untouched
    have kept : part.Same m (m.execute (.draw x y n)).machine := execute_same untouched
    rw [executed] at kept
    exact kept

/-! ## Two drawings -/

theorem Drawn.flag_eq_one_iff (drawn : m.Drawn x y sprite m') :
    m'.v Registers.flag = 1 ↔ m.display.Struck x y sprite := by
  constructor
  · intro one
    apply Classical.byContradiction
    intro missed
    rw [drawn.unflagged missed] at one
    exact absurd one (by decide)
  · exact drawn.flagged

theorem Drawn.twice (first : m.Drawn x y sprite m') (second : m'.Drawn x y sprite m'') :
    m''.display = m.display := by
  apply FrameBuffer.eq_of_isSet
  intro column inside row below
  rw [second.pixel column inside row below, first.pixel column inside row below, Bool.xor_assoc,
    Bool.xor_self, Bool.xor_false]

/-- A sprite that is drawn twice strikes a pixel that is on, the first or the second time. -/
theorem Drawn.visible_iff (first : m.Drawn x y sprite m') :
    Plane.Visible x y sprite ↔ m.display.Struck x y sprite ∨ m'.display.Struck x y sprite := by
  constructor
  · rintro ⟨column, inside, row, below, bit⟩
    cases on : m.display.isSet column row with
    | true => exact .inl ⟨column, inside, row, below, on, bit⟩
    | false =>
      -- the pixel was off, so the first drawing turns it on
      have lit : m'.display.isSet column row = true := by
        rw [first.pixel column inside row below, on, bit]
        rfl
      exact .inr ⟨column, inside, row, below, lit, bit⟩
  · rintro (⟨column, inside, row, below, _, bit⟩ | ⟨column, inside, row, below, _, bit⟩)
    · exact ⟨column, inside, row, below, bit⟩
    · exact ⟨column, inside, row, below, bit⟩

theorem Drawn.flag_eq (drawn : m.Drawn x y sprite m') :
    m'.v Registers.flag = 0 ∨ m'.v Registers.flag = 1 := by
  rcases Classical.em (m.display.Struck x y sprite) with hit | missed
  · exact .inr (drawn.flagged hit)
  · exact .inl (drawn.unflagged missed)

theorem Drawn.flags_eq_one_iff (first : m.Drawn x y sprite m')
    (second : m'.Drawn x y sprite m'') :
    m'.v Registers.flag ||| m''.v Registers.flag = 1 ↔ Plane.Visible x y sprite := by
  rw [first.visible_iff, ← first.flag_eq_one_iff, ← second.flag_eq_one_iff]
  -- each flag is zero or one, which leaves four disjunctions of bits
  rcases first.flag_eq with off | on <;> rcases second.flag_eq with off' | on' <;>
    simp only [*] <;> decide

theorem Drawn.v_of_ne (drawn : m.Drawn x y sprite m') {r : UInt8}
    (plain : nibble r ≠ nibble Registers.flag) : m'.v r = m.v r :=
  drawn.rest (.register (nibble r)) (by simpa using plain)

/-- A sprite of the bytes at the index register, if they are all in memory, is drawn at the place
    that two registers name before the drawing; the flag says afterwards whether a pixel that was on
    was turned off, and beside the flag and the display nothing changes.  The same drawing can be
    made once more, at the place that the registers name then.  If neither of them is the flag
    register, that is the same place, and then the display is what it was at first, and one of the
    two flags was set exactly if some bit of the sprite lies on the grid. -/
theorem drawing_twice_erases (m : Machine) (x y n : UInt8)
    (inside : m.index.address + n.toNat ≤ Memory.size) :
    ∃ sprite, sprite.length = n.toNat ∧ m.memory.Holds m.index.address sprite
      ∧ ∃ m', m.execute (.draw x y n) = .done .next m'
        ∧ m.Drawn (m.v x).toNat (m.v y).toNat sprite m'
        ∧ ∃ m'', m'.execute (.draw x y n) = .done .next m''
          ∧ m'.Drawn (m'.v x).toNat (m'.v y).toNat sprite m''
          ∧ (nibble x ≠ nibble Registers.flag → nibble y ≠ nibble Registers.flag →
              m''.display = m.display
                ∧ (m'.v Registers.flag ||| m''.v Registers.flag = 1 ↔
                    Plane.Visible (m.v x).toNat (m.v y).toNat sprite)) := by
  obtain ⟨sprite, read⟩ := m.memory.slice_inside inside
  have length := Memory.length_of_slice read
  have held := Memory.holds_of_slice read
  obtain ⟨m', executed, drawn⟩ := drawn_of_execute m x y n length inside held
  -- the bytes are still where they were
  have index : m'.index = m.index := drawn.rest .index (by decide)
  have held' : m'.memory.Holds m'.index.address sprite := by
    intro i reached
    rw [index]
    exact (drawn.rest (.cell _) (by simp)).trans (held i reached)
  obtain ⟨m'', executed', drawn'⟩ :=
    drawn_of_execute m' x y n length (by rw [index]; exact inside) held'
  refine ⟨sprite, length, held, m', executed, drawn, m'', executed', drawn', ?_⟩
  intro plainX plainY
  rw [drawn.v_of_ne plainX, drawn.v_of_ne plainY] at drawn'
  exact ⟨drawn.twice drawn', drawn.flags_eq_one_iff drawn'⟩

/-- A machine with the glyph of zero at its index register, a place in the bottom right corner in
    V1 and V2, and 5 in the flag register. -/
def placing : Machine :=
  { fresh (.arithmetic 0 0) with
    registers := ((Registers.initial.set 1 62).set 2 31).set 0xF 5 }

theorem placing_draws_twice :
    (∃ m' m'', placing.execute (.draw 1 2 5) = .done .next m'
        ∧ m'.execute (.draw 1 2 5) = .done .next m''
        ∧ m''.display = placing.display
        ∧ m'.v Registers.flag ||| m''.v Registers.flag = 1)
      -- placed by the flag, the second drawing goes to the first column
      ∧ ∃ m' m'', placing.execute (.draw 0xF 0 5) = .done .next m'
        ∧ m'.execute (.draw 0xF 0 5) = .done .next m''
        ∧ m''.display.isSet 5 0 = true ∧ placing.display.isSet 5 0 = false := by
  have inside : placing.index.address + (5 : UInt8).toNat ≤ Memory.size := by decide
  have font : placing.memory.Holds placing.index.address (Memory.glyph 0) :=
    Memory.initial_fontIntact.holds_glyph 0
  have dark : placing.display.isSet 5 0 = false := by decide
  have glyph : ∀ sprite : List UInt8, sprite.length = (5 : UInt8).toNat →
      placing.memory.Holds placing.index.address sprite → sprite = Memory.glyph 0 :=
    fun sprite length held => held.unique font length
  constructor
  · obtain ⟨sprite, length, held, m', executed, _, m'', executed', _, erased⟩ :=
      drawing_twice_erases placing 1 2 5 inside
    obtain ⟨same, flags⟩ := erased (by decide) (by decide)
    rw [glyph sprite length held] at flags
    exact ⟨m', m'', executed, executed', same,
      flags.mpr ⟨62, by decide, 31, by decide, by decide⟩⟩
  · obtain ⟨sprite, length, held, m', executed, drawn, m'', executed', drawn', _⟩ :=
      drawing_twice_erases placing 0xF 0 5 inside
    rw [glyph sprite length held] at drawn drawn'
    have missed : ¬ placing.display.Struck (placing.v 0xF).toNat (placing.v 0).toNat
        (Memory.glyph 0) := by
      rintro ⟨column, _, row, below, on, _⟩
      simp [placing, fresh, FrameBuffer.blank, FrameBuffer.isSet, below] at on
    have start : m'.v 0xF = 0 := drawn.unflagged missed
    have top : m'.v 0 = 0 := drawn.v_of_ne (by decide)
    have lit : m'.display.isSet 5 0 = true := by
      rw [drawn.pixel 5 (by decide) 0 (by decide), dark]
      decide
    refine ⟨m', m'', executed, executed', ?_, dark⟩
    rw [drawn'.pixel 5 (by decide) 0 (by decide), lit, start, top]
    decide

end Machine

end Chip8
