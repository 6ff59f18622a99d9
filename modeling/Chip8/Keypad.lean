import Chip8.Nibble

/-! # The keypad

Sixteen keys with the values 0 to 15.  A running program sees a copy of the keys' state that is
replaced as a whole at the start of each cycle, from whatever source of keys the host has.
-/

namespace Chip8

/-- Which keys are down right now. -/
abbrev KeySource := Fin 16 → Bool

/-- The state of the keys as the program sees it. -/
structure Keypad where
  keys : Vector Bool 16
  deriving DecidableEq

namespace Keypad

def initial : Keypad :=
  ⟨Vector.replicate 16 false⟩

/-- The keypad with the state of every key replaced by what a source says. -/
def refresh (p : Keypad) (source : KeySource) : Keypad :=
  ⟨p.keys.mapFinIdx fun k _ bound => source ⟨k, bound⟩⟩

/-- Whether a key is down; a key is named by the low half of a byte. -/
def isDown (p : Keypad) (key : UInt8) : Bool :=
  p.keys.get (nibble key)

/-- The keys that are down, in ascending order. -/
def down (p : Keypad) : List (Fin 16) :=
  (List.finRange 16).filter fun k => p.keys.get k

/-- The only key that is down, if there is exactly one. -/
def single (p : Keypad) : Option (Fin 16) :=
  match p.down with
  | [k] => some k
  | _ => none

/-- A refreshed keypad says what its source says, whatever it said before. -/
@[simp] theorem isDown_refresh (p : Keypad) (source : KeySource) (key : UInt8) :
    (p.refresh source).isDown key = source (nibble key) := by
  change (p.keys.mapFinIdx fun k _ bound => source ⟨k, bound⟩)[(nibble key).val] = _
  rw [Vector.getElem_mapFinIdx]

end Keypad

end Chip8
