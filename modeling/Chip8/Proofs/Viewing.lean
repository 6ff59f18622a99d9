import Chip8.Proofs.Cropping
import Chip8.Proofs.Showing

/-! # Views of the grid

Four ways to look at a grid agree: the pixels that a screen draws, the lines of its picture, the
answer whether it is blank, and the question about a single pixel.  The pixel in column `x` of row
`y` is entry `64 * y + x` of the buffer and character `x` of line `y`, whatever the buffer held
before, and outside the grid there is nothing.

The non-trivial ingredient is `getElem?_flatMap`: rows of one width, put one behind the other, have
the entry `x` of row `y` at `width * y + x`.
-/

namespace Chip8

/-! ## Rows and lines -/

section

variable {α β : Type}

theorem length_flatMap {f : α → List β} {n : Nat} (even : ∀ a, (f a).length = n)
    (rows : List α) : (rows.flatMap f).length = n * rows.length := by
  simp only [List.length_flatMap, even, List.map_const', List.sum_replicate_nat, Nat.mul_comm]

theorem getElem?_flatMap {f : α → List β} {n : Nat} (even : ∀ a, (f a).length = n) {x : Nat}
    (inside : x < n) (rows : List α) (y : Nat) :
    (rows.flatMap f)[n * y + x]? = rows[y]?.bind fun a => (f a)[x]? := by
  induction rows generalizing y with
  | nil => rfl
  | cons a rows ih =>
    rw [List.flatMap_cons]
    cases y with
    | zero =>
      rw [Nat.mul_zero, Nat.zero_add, List.getElem?_append_left (by rw [even]; exact inside)]
      rfl
    | succ y =>
      have behind : n * (y + 1) + x = (f a).length + (n * y + x) := by
        rw [even, Nat.mul_succ]
        omega
      rw [behind, List.getElem?_append_right (Nat.le_add_right ..), Nat.add_sub_cancel_left, ih y]
      rfl

/-- Lines that are ended by line feeds are split at them, and nothing is left behind the last. -/
theorem splitOn_lines {lines : List (List Char)} (whole : ∀ line ∈ lines, '\n' ∉ line) :
    (lines.flatMap (· ++ ['\n'])).splitOn '\n' = lines ++ [[]] := by
  induction lines with
  | nil => rfl
  | cons line lines ih =>
    obtain ⟨first, rest⟩ := List.forall_mem_cons.mp whole
    rw [List.flatMap_cons, List.append_assoc, List.singleton_append,
      List.splitOn_append_cons_self_of_not_mem first, ih rest, List.cons_append]

end

namespace FrameBuffer

variable {fb fb' : FrameBuffer} {x y : Nat}

/-- The character in column `x` of line `y` of a text. -/
def characterAt (text : String) (x y : Nat) : Option Char :=
  (text.toList.splitOn '\n')[y]?.bind fun chars => chars[x]?

/-- The mark of a pixel. -/
def mark (on : Bool) : Char :=
  if on then '#' else '.'

theorem mark_injective : Function.Injective mark := by
  intro on on' same
  revert same
  cases on <;> cases on' <;> decide

theorem isSet_outside (fb : FrameBuffer) (outside : width ≤ x ∨ height ≤ y) :
    fb.isSet x y = false := by
  unfold isSet
  split
  next below =>
    apply BitVec.getMsbD_of_ge
    exact outside.resolve_right (Nat.not_le_of_lt below)
  next => rfl

theorem isSet_inside (fb : FrameBuffer) (below : y < height) :
    fb.isSet x y = (fb.rows[y]).getMsbD x :=
  dif_pos below

theorem isBlank_iff : fb.isBlank = true ↔ ∀ x y, fb.isSet x y = false := by
  rw [isBlank, Vector.all_eq_true]
  constructor
  · intro blank x y
    by_cases below : y < height
    · rw [isSet_inside fb below, beq_iff_eq.mp (blank y below)]
      exact BitVec.getMsbD_zero
    · exact fb.isSet_outside (.inr (Nat.le_of_not_lt below))
  · intro dark y below
    rw [beq_iff_eq]
    apply BitVec.eq_of_getMsbD_eq
    intro x _
    rw [← isSet_inside fb below, dark]
    exact BitVec.getMsbD_zero.symm

/-! ## The picture -/

theorem getElem?_rowMarks (row : BitVec width) (x : Nat) :
    (rowMarks row)[x]? = if x < width then some (mark (row.getMsbD x)) else none := by
  rw [rowMarks, List.getElem?_map]
  split
  next inside =>
    rw [List.getElem?_range inside]
    rfl
  next outside =>
    rw [List.getElem?_eq_none (by rw [List.length_range]; exact Nat.le_of_not_lt outside)]
    rfl

theorem lines_picture (fb : FrameBuffer) :
    fb.picture.toList.splitOn '\n' = fb.rows.toList.map rowMarks ++ [[]] := by
  have whole : ∀ line ∈ fb.rows.toList.map rowMarks, '\n' ∉ line := by
    intro line member found
    obtain ⟨row, _, rfl⟩ := List.mem_map.mp member
    obtain ⟨x, _, same⟩ := List.mem_map.mp found
    revert same
    split <;> decide
  rw [← splitOn_lines whole, List.flatMap_map, picture, String.toList_ofList]

theorem characterAt_picture (fb : FrameBuffer) (x y : Nat) :
    characterAt fb.picture x y =
      if x < width ∧ y < height then some (mark (fb.isSet x y)) else none := by
  have count : (fb.rows.toList.map rowMarks).length = height := by simp
  rw [characterAt, lines_picture]
  by_cases below : y < height
  · have reached : y < (fb.rows.toList.map rowMarks).length := by
      rw [count]
      exact below
    rw [List.getElem?_append_left reached, List.getElem?_map, Vector.getElem?_toList,
      Vector.getElem?_eq_getElem below, isSet_inside fb below]
    simp only [Option.map_some, Option.bind_some, getElem?_rowMarks, below, and_true]
  · -- behind the last row there is an empty line and nothing more
    rw [List.getElem?_append_right (by rw [count]; exact Nat.le_of_not_lt below),
      if_neg fun inside => below inside.2]
    cases y - (fb.rows.toList.map rowMarks).length <;> rfl

theorem eq_of_picture (same : fb.picture = fb'.picture) : fb = fb' := by
  apply eq_of_isSet
  intro x inside y below
  have marks := congrArg (characterAt · x y) same
  simp only [characterAt_picture, inside, below, and_self, if_true] at marks
  exact mark_injective (Option.some.inj marks)

/-! ## The pixels -/

/-- The pixels of the grid, row by row. -/
def bits (fb : FrameBuffer) : List Bool :=
  fb.rows.toList.flatMap fun row => (List.range width).map row.getMsbD

theorem getElem?_bits (fb : FrameBuffer) (inside : x < width) (below : y < height) :
    fb.bits[64 * y + x]? = some (fb.isSet x y) := by
  rw [bits, getElem?_flatMap (fun _ => by rw [List.length_map, List.length_range]) inside,
    Vector.getElem?_toList, Vector.getElem?_eq_getElem below, isSet_inside fb below]
  simp [inside]

theorem length_bits (fb : FrameBuffer) : fb.bits.length = 2048 := by
  rw [bits, length_flatMap (n := width) (fun _ => by rw [List.length_map, List.length_range]),
    Vector.length_toList, width, height]

end FrameBuffer

namespace PixelBuffer

/-- The entries with the colours of a list of pixels put over them from the first on, for as long as
    there are both. -/
def overlay : List UInt32 → List Bool → List UInt32
  | _ :: entries, on :: bits => (if on then lit else dark) :: overlay entries bits
  | entries, _ => entries

variable {entries : List UInt32} {bits : List Bool}

theorem overlay_eq_map (same : entries.length = bits.length) :
    overlay entries bits = bits.map fun on => if on then lit else dark := by
  induction bits generalizing entries with
  | nil =>
    rw [List.length_eq_zero_iff.mp same]
    rfl
  | cons on bits ih =>
    cases entries with
    | nil => cases same
    | cons entry entries =>
      rw [overlay, ih (Nat.succ.inj same), List.map_cons]

/-- Putting a frame into a buffer overwrites every entry, row by row. -/
theorem toList_blit (b : PixelBuffer) (fb : FrameBuffer) :
    (b.blit fb).pixels.toList = overlay b.pixels.toList fb.bits := by
  have length : b.pixels.toList.length = fb.bits.length := by
    rw [Vector.length_toList, fb.length_bits]
  rw [overlay_eq_map length]
  apply List.ext_getElem?
  intro i
  rw [Vector.getElem?_toList, List.getElem?_map]
  by_cases reached : i < 2048
  · -- entry `i` belongs to one row and one column
    have inside : i % 64 < FrameBuffer.width := Nat.mod_lt i (by decide)
    have below : i / 64 < FrameBuffer.height := by
      rw [FrameBuffer.height]
      omega
    rw [← Nat.div_add_mod i 64, getElem?_blit b fb inside below, fb.getElem?_bits inside below]
    rfl
  · rw [Vector.getElem?_eq_none (Nat.le_of_not_lt reached),
      List.getElem?_eq_none (by rw [fb.length_bits]; exact Nat.le_of_not_lt reached)]
    rfl

theorem blit_inj {b b' : PixelBuffer} {fb fb' : FrameBuffer} :
    b.blit fb = b'.blit fb' ↔ fb = fb' := by
  constructor
  · intro same
    have shows := b.blit_shows fb
    rw [same, (b'.blit_shows fb').unique] at shows
    exact shows
  · rintro rfl
    -- what the buffers held before is gone
    have length (b : PixelBuffer) : b.pixels.toList.length = fb.bits.length := by
      rw [Vector.length_toList, fb.length_bits]
    have same : (b.blit fb).pixels.toList = (b'.blit fb).pixels.toList := by
      rw [toList_blit, toList_blit, overlay_eq_map (length b), overlay_eq_map (length b')]
    exact congrArg PixelBuffer.mk (Vector.toList_inj.mp same)

end PixelBuffer

/-- A screen puts a frame into its buffer, also when the window then refuses it. -/
theorem Screen.pixels_render (s : Screen) (fb : FrameBuffer) :
    (s.render fb).2.pixels = s.pixels.blit fb := by
  unfold render
  dsimp only
  split <;> rfl

namespace FrameBuffer

/-- All views of a grid describe the same grid.  Showing it on a screen makes the entry for each
    pixel blue or black, whatever the buffer held before, which is what comes of putting the pixels
    over the entries one by one; the picture has a mark for each pixel, in its place; the grid is
    blank when no pixel is on; and outside there is none.  So grids that look the same, in their
    pictures or on screens, are the same. -/
theorem views_agree (fb : FrameBuffer) :
    (∀ (s : Screen) (x y : Nat), x < width → y < height →
        (s.render fb).2.pixels.pixels[64 * y + x]?
          = some (if fb.isSet x y then 0x007FFF else 0x000000))
      ∧ (∀ s : Screen, (s.render fb).2.pixels.pixels.toList
          = PixelBuffer.overlay s.pixels.pixels.toList fb.bits)
      ∧ (∀ x y, characterAt fb.picture x y
          = if x < width ∧ y < height then some (if fb.isSet x y then '#' else '.') else none)
      ∧ (fb.isBlank = true ↔ ∀ x y, fb.isSet x y = false)
      ∧ (∀ x y, width ≤ x ∨ height ≤ y → fb.isSet x y = false)
      ∧ ∀ fb', (fb.picture = fb'.picture ↔ fb = fb')
          ∧ ∀ s s' : Screen, (s.render fb).2.pixels = (s'.render fb').2.pixels ↔ fb = fb' := by
  refine ⟨?_, ?_, characterAt_picture fb, isBlank_iff, fun x y => fb.isSet_outside, ?_⟩
  · intro s x y inside below
    rw [s.pixels_render]
    exact PixelBuffer.getElem?_blit s.pixels fb inside below
  · intro s
    rw [s.pixels_render]
    exact PixelBuffer.toList_blit s.pixels fb
  · intro fb'
    refine ⟨⟨eq_of_picture, congrArg picture⟩, ?_⟩
    intro s s'
    rw [s.pixels_render, s'.pixels_render]
    exact PixelBuffer.blit_inj

theorem cornered_views_agree : 63 < width ∧ 31 < height
    ∧ ((Screen.opened Script.empty .x8).render cornered.1).2.pixels.pixels[2047]? = some 0x007FFF
    ∧ characterAt cornered.1.picture 63 31 = some '#'
    ∧ characterAt cornered.1.picture 64 31 = none
    ∧ cornered.1.isSet 64 31 = false
    ∧ cornered.1.isBlank = false ∧ cornered.1.picture ≠ blank.picture := by
  have on : cornered.1.isSet 63 31 = true := by decide +kernel
  obtain ⟨entries, _, characters, blankness, outside, others⟩ := views_agree cornered.1
  have entry := entries (Screen.opened Script.empty .x8) 63 31 (by decide) (by decide)
  have inside := characters 63 31
  have behind := characters 64 31
  rw [on] at entry inside
  have shown : cornered.1.isBlank = false := by
    apply eq_false_of_ne_true
    intro dark
    rw [blankness.mp dark] at on
    cases on
  refine ⟨by decide, by decide, entry, inside, behind, outside 64 31 (.inl (by decide)), shown, ?_⟩
  intro same
  rw [(others blank).1.mp same] at on
  cases on

end FrameBuffer

end Chip8
