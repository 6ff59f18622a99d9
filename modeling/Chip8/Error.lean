import Chip8.Numeral

/-! # What can go wrong

Three kinds of trouble, kept apart.  A `MachineError` is a fatal condition of the running program;
the machine halts on it and reports it once.  A `LoadError` says why no program was brought into
memory.  A `Fault` is a broken expectation of the emulator itself: an addition left its word, an
index left its array, a copy had two lengths.  Nothing is said about the state after a fault.
-/

namespace Chip8

inductive Fault where
  /-- An arithmetic result does not fit its word. -/
  | overflow
  /-- An index lies outside its array. -/
  | indexOutOfRange
  /-- The two sides of a copy have different lengths. -/
  | lengthMismatch
  /-- An instruction's digits were read in an order that no instruction has. -/
  | digitsMisread
  deriving DecidableEq, Repr, Inhabited

/-- `a - b`, which faults below zero. -/
def Fault.checkedSub (a b : Nat) : Except Fault Nat :=
  if b ≤ a then .ok (a - b) else .error .overflow

inductive MachineError where
  /-- A call with every stack slot taken. -/
  | stackOverflow (pc : UInt16)
  /-- A return with nothing on the stack. -/
  | stackUnderflow (pc : UInt16)
  /-- No whole instruction is left at the program counter. -/
  | pcOutOfRange (pc : UInt16)
  /-- An access past the last cell. -/
  | memoryOutOfBounds (addr : Nat)
  deriving DecidableEq, Repr, Inhabited

/-- The text of a fatal condition. -/
def MachineError.message : MachineError → String
  | .stackOverflow pc => "call stack overflow at pc " ++ Numeral.address pc.toNat
  | .stackUnderflow pc => "return with empty call stack at pc " ++ Numeral.address pc.toNat
  | .pcOutOfRange pc =>
    "program counter " ++ Numeral.address pc.toNat ++ " left addressable memory"
  | .memoryOutOfBounds addr => "memory access at " ++ Numeral.address addr ++ " is out of bounds"

/-- Why a computation on the machine ended without a value. -/
inductive Stop where
  | error (cause : MachineError)
  | fault (cause : Fault)
  deriving DecidableEq, Repr, Inhabited

/-- Why the bytes of a file could not be read. -/
inductive ReadError where
  | notFound
  /-- A name on the way is no directory. -/
  | notDirectory
  | isDirectory
  /-- A name is longer than the system allows. -/
  | nameTooLong
  /-- The path holds the character that ends a path. -/
  | nulInPath
  /-- Another reason, in the system's words. -/
  | other (text : String)
  deriving DecidableEq, Repr, Inhabited

/-- The system's text for a reading failure. -/
def ReadError.message : ReadError → String
  | .notFound => "No such file or directory (os error 2)"
  | .notDirectory => "Not a directory (os error 20)"
  | .isDirectory => "Is a directory (os error 21)"
  | .nameTooLong => "File name too long (os error 36)"
  | .nulInPath => "file name contained an unexpected NUL byte"
  | .other text => text

/-- Why no program was brought into memory. -/
inductive LoadError where
  /-- The image has more bytes than the program area. -/
  | romTooLarge (size max : Nat)
  | unreadable (path : String) (source : ReadError)
  deriving DecidableEq, Repr, Inhabited

/-- The text of a loading failure, without its source. -/
def LoadError.message : LoadError → String
  | .romTooLarge size max =>
    "rom is " ++ Numeral.decimal size ++ " bytes but only " ++ Numeral.decimal max
      ++ " fit above 0x200"
  | .unreadable path _ => "unable to read rom '" ++ path ++ "'"

/-- The texts of a loading failure, outermost first. -/
def LoadError.chain : LoadError → List String
  | e@(.romTooLarge ..) => [e.message]
  | e@(.unreadable _ source) => [e.message, source.message]

end Chip8
