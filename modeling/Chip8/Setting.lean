/-! # Settings

A setting is a text that names something, or that names something and gives it a value with `=`
between the two.  A name has no `=`, so the first one ends it; any later one is part of the value
(`ofChars_append`).
-/

namespace Chip8

/-- A name, and its value if one is given. -/
structure Setting where
  name : List Char
  value : Option (List Char)
  deriving DecidableEq, Repr, Inhabited

namespace Setting

/-- The setting that a text stands for: its name ends in front of the first `=`. -/
def ofChars (text : List Char) : Setting :=
  match text.dropWhile (· ≠ '=') with
  | [] => { name := text, value := none }
  | _ :: value => { name := text.takeWhile (· ≠ '='), value := some value }

/-- No character of a text without `=` ends a name. -/
theorem continues_of_notMem {name : List Char} (lone : '=' ∉ name) :
    ∀ c ∈ name, decide (c ≠ '=') = true := by
  intro c found
  simpa using fun same : c = '=' => lone (same ▸ found)

/-- A text without `=` is a name. -/
theorem ofChars_of_notMem {name : List Char} (lone : '=' ∉ name) :
    ofChars name = { name, value := none } := by
  have dropped : name.dropWhile (· ≠ '=') = [] := by
    rw [← List.append_nil name, List.dropWhile_append_of_pos (continues_of_notMem lone)]
    rfl
  simp only [ofChars, dropped]

/-- A name and any value with `=` between them are read back, whatever the value contains. -/
theorem ofChars_append {name : List Char} (value : List Char) (lone : '=' ∉ name) :
    ofChars (name ++ '=' :: value) = { name, value := some value } := by
  have dropped : (name ++ '=' :: value).dropWhile (· ≠ '=') = '=' :: value := by
    rw [List.dropWhile_append_of_pos (continues_of_notMem lone)]
    simp
  have taken : (name ++ '=' :: value).takeWhile (· ≠ '=') = name := by
    rw [List.takeWhile_append_of_pos (continues_of_notMem lone)]
    simp
  simp only [ofChars, dropped, taken]

end Setting

end Chip8
