/-! # Writing runs of cells

Memory and the register file are vectors of cells, and both are written a run at a time: a list of
values goes into consecutive cells from a first one on.  What would land past the last cell is
dropped.  The one fact to know about `writeBlock` is `getElem_writeBlock`.
-/

namespace Chip8

/-- The cells with the values of a list put into consecutive places from `start` on. -/
def writeBlock {α : Type} {n : Nat} (cells : Vector α n) (start : Nat) : List α → Vector α n
  | [] => cells
  | value :: rest => writeBlock (cells.setIfInBounds start value) (start + 1) rest

/-- A written block shows the list inside its extent and the old cells outside. -/
theorem getElem_writeBlock {α : Type} {n : Nat} (cells : Vector α n) (start : Nat)
    (values : List α) (i : Nat) (bound : i < n) :
    (writeBlock cells start values)[i] =
      if start ≤ i then values[i - start]?.getD cells[i] else cells[i] := by
  induction values generalizing cells start with
  | nil => simp [writeBlock]
  | cons value rest ih =>
    rw [writeBlock, ih, Vector.getElem_setIfInBounds bound]
    by_cases here : start = i
    · subst here
      rw [if_neg (Nat.not_succ_le_self start)]
      simp
    · by_cases inside : start + 1 ≤ i
      · have place : i - start = (i - (start + 1)) + 1 := by omega
        have after : start ≤ i := by omega
        rw [if_pos inside, if_pos after, if_neg here, place, List.getElem?_cons_succ]
      · have before : ¬ start ≤ i := by omega
        rw [if_neg inside, if_neg before, if_neg here]

end Chip8
