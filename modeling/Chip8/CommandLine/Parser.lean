import Chip8.CommandLine.Config
import Chip8.Setting

/-! # Reading the command line

A command line names one program and may set each of three options once, in any order.  An option
takes a value, either attached (`-c60`, `-c=60`, `--cycles-per-second=60`) or as the next argument,
unless that one begins with a dash; `--` turns everything behind it into plain arguments.

Arguments are read from left to right.  A plain argument, and an option whose value comes as an
argument of its own, are only *held* when they are met: what they hold is taken over when the next
known argument begins, or at the end.  So an argument that is refused at sight is reported before a
value in front of it that would have been refused later.
-/

namespace Chip8

/-! ## What can be said -/

/-- An option that takes a value. -/
inductive OptionName where
  | cyclesPerSecond
  | timerMode
  | scale
  deriving DecidableEq, Repr, Inhabited

/-- An argument that begins with a dash and is known. -/
inductive Switch where
  | option (name : OptionName)
  | help
  | version
  deriving DecidableEq, Repr, Inhabited

namespace Switch

/-- The switch behind a single dash. -/
def ofLetter? : Char → Option Switch
  | 'c' => some (.option .cyclesPerSecond)
  | 't' => some (.option .timerMode)
  | 's' => some (.option .scale)
  | 'h' => some .help
  | 'V' => some .version
  | _ => none

/-- The switch behind two dashes. -/
def ofName? (name : List Char) : Option Switch :=
  if name = "cycles-per-second".toList then some (.option .cyclesPerSecond)
  else if name = "timer-mode".toList then some (.option .timerMode)
  else if name = "scale".toList then some (.option .scale)
  else if name = "help".toList then some .help
  else if name = "version".toList then some .version
  else none

end Switch

/-- Why a command line gives no configuration. -/
inductive Refusal where
  /-- A value is missing, empty, or not one of those allowed. -/
  | invalidValue
  /-- A value is not a number of the allowed range. -/
  | valueOutOfRange
  /-- Nothing is known by this name, or there is nothing for this argument to be. -/
  | unknownArgument
  /-- No program was named. -/
  | missingArgument
  /-- An option was set twice. -/
  | repeatedOption
  /-- A value was attached to a switch that takes none. -/
  | needlessValue
  /-- The help text was asked for. -/
  | help
  /-- The version was asked for. -/
  | version
  deriving DecidableEq, Repr, Inhabited

/-! ## Arguments by shape -/

/-- An argument by its dashes. -/
inductive Argument where
  /-- Two dashes and nothing else. -/
  | endOfOptions
  /-- A setting behind two dashes. -/
  | long (setting : Setting)
  /-- A letter behind one dash, and the rest. -/
  | short (letter : Char) (rest : List Char)
  /-- Anything else, a single dash included. -/
  | plain (text : String)
  deriving DecidableEq, Repr, Inhabited

namespace Argument

/-- The shape of an argument. -/
def ofText (text : String) : Argument :=
  match text.toList with
  | ['-', '-'] => .endOfOptions
  | '-' :: '-' :: rest => .long (.ofChars rest)
  | '-' :: letter :: rest => .short letter rest
  | _ => .plain text

/-- The value attached to a letter: what follows it, less one `=` in front. -/
def attached? : List Char → Option (List Char)
  | [] => none
  | '=' :: value => some value
  | value => some value

end Argument

/-! ## Values -/

/-- The number that decimal digits spell, with a sign in front of them or not. -/
def readInteger? : List Char → Option Int
  | '-' :: digits => (Numeral.ofDecimal? digits).map fun n => -(n : Int)
  | '+' :: digits => (Numeral.ofDecimal? digits).map fun n => (n : Int)
  | digits => (Numeral.ofDecimal? digits).map fun n => (n : Int)

/-- An instruction rate: a number from 1 up to the largest 32-bit one. -/
def readRate (value : List Char) : Except Refusal UInt32 :=
  match readInteger? value with
  | none => .error .valueOutOfRange
  | some n =>
    if 1 ≤ n ∧ n < UInt32.size then .ok (UInt32.ofNat n.toNat) else .error .valueOutOfRange

/-- The word of a value that has to be one of a list, or a refusal. -/
def oneOf {α : Type} (known : Option α) : Except Refusal α :=
  match known with
  | none => .error .invalidValue
  | some value => .ok value

/-! ## Reading from left to right -/

/-- What was taken over so far. -/
structure Draft where
  rom : Option String
  cyclesPerSecond : Option UInt32
  timerMode : Option TimerMode
  scale : Option Scale
  deriving DecidableEq, Repr, Inhabited

namespace Draft

/-- Nothing taken over. -/
def empty : Draft :=
  { rom := none, cyclesPerSecond := none, timerMode := none, scale := none }

/-- Whether an option is set. -/
def isSet (d : Draft) : OptionName → Bool
  | .cyclesPerSecond => d.cyclesPerSecond.isSome
  | .timerMode => d.timerMode.isSome
  | .scale => d.scale.isSome

/-- Takes over the value of an option, which must not be set already. -/
def setOption (d : Draft) (name : OptionName) (value : List Char) : Except Refusal Draft :=
  if d.isSet name then .error .repeatedOption
  else
    match name with
    | .cyclesPerSecond => do
      let rate ← readRate value
      return { d with cyclesPerSecond := some rate }
    | .timerMode => do
      let mode ← oneOf (TimerMode.ofWord? (String.ofList value))
      return { d with timerMode := some mode }
    | .scale => do
      let scale ← oneOf (Scale.ofWord? (String.ofList value))
      return { d with scale := some scale }

/-- Takes over the path of the program, which must not be empty. -/
def setRom (d : Draft) (path : String) : Except Refusal Draft :=
  if path = "" then .error .invalidValue else .ok { d with rom := some path }

/-- The configuration that was taken over, with the standard values for what was left out. -/
def finish (d : Draft) : Except Refusal Config :=
  match d.rom with
  | none => .error .missingArgument
  | some rom =>
    .ok
      { rom
        cyclesPerSecond := d.cyclesPerSecond.getD Config.standardRate
        timerMode := d.timerMode.getD .perCycle
        scale := d.scale.getD .x8 }

end Draft

/-- What was met last and is still held. -/
inductive Held where
  | nothing
  /-- The path of the program. -/
  | rom (path : String)
  /-- An option, and its value if that came already. -/
  | option (name : OptionName) (value : Option (List Char))
  deriving DecidableEq, Repr, Inhabited

/-- How far the reading has come. -/
structure Reading where
  draft : Draft
  held : Held
  /-- Everything from here on is a plain argument. -/
  optionsEnded : Bool
  deriving DecidableEq, Repr, Inhabited

namespace Reading

/-- Before the first argument. -/
def start : Reading :=
  { draft := .empty, held := .nothing, optionsEnded := false }

/-- Takes over what is held. -/
def settle (r : Reading) : Except Refusal Draft :=
  match r.held with
  | .nothing => .ok r.draft
  | .rom path => r.draft.setRom path
  | .option _ none => .error .invalidValue
  | .option name (some value) => r.draft.setOption name value

/-- Whether the program was named already. -/
def hasRom (r : Reading) : Bool :=
  match r.held with
  | .rom _ => true
  | _ => r.draft.rom.isSome

/-- Takes over what is held, and holds something else. -/
def hold (r : Reading) (held : Held) : Except Refusal Reading := do
  let draft ← r.settle
  return { r with draft, held }

/-- A plain argument: the value that an option waits for, or the program. -/
def plain (r : Reading) (text : String) : Except Refusal Reading :=
  match r.held, r.optionsEnded with
  | .option name none, false => .ok { r with held := .option name (some text.toList) }
  | _, _ => if r.hasRom then .error .unknownArgument else r.hold (.rom text)

/-- A known switch with the value attached to it, if there is one. -/
def switch (r : Reading) (s : Switch) (value : Option (List Char)) : Except Refusal Reading :=
  match s, value with
  | .option name, none => r.hold (.option name none)
  | .option name, some value => do
    let draft ← r.settle
    let draft ← draft.setOption name value
    return { r with draft, held := .nothing }
  | .help, _ => do
    let _ ← r.settle
    throw .help
  | .version, _ => do
    let _ ← r.settle
    throw .version

/-- A setting behind two dashes. -/
def long (r : Reading) (setting : Setting) : Except Refusal Reading :=
  match Switch.ofName? setting.name, setting.value with
  | none, _ => .error .unknownArgument
  | some (.option option), value => r.switch (.option option) value
  | some _, some _ => .error .needlessValue
  | some s, none => r.switch s none

/-- An argument behind one dash. -/
def short (r : Reading) (letter : Char) (rest : List Char) : Except Refusal Reading :=
  match Switch.ofLetter? letter with
  | none => .error .unknownArgument
  | some s => r.switch s (Argument.attached? rest)

/-- One argument. -/
def next (r : Reading) (text : String) : Except Refusal Reading :=
  if r.optionsEnded then r.plain text
  else
    match Argument.ofText text with
    | .endOfOptions => .ok { r with optionsEnded := true }
    | .long setting => r.long setting
    | .short letter rest => r.short letter rest
    | .plain text => r.plain text

/-- A list of arguments, in order. -/
def readAll (r : Reading) : List String → Except Refusal Reading
  | [] => .ok r
  | text :: rest => do
    let r ← r.next text
    r.readAll rest

/-- The end of the arguments. -/
def finish (r : Reading) : Except Refusal Config := do
  let draft ← r.settle
  draft.finish

end Reading

namespace CommandLine

/-- The configuration that a command line asks for.  The first argument is the program's own name
    and says nothing. -/
def parse (argv : List String) : Except Refusal Config := do
  let r ← Reading.start.readAll (argv.drop 1)
  r.finish

/-- What is printed when the version is asked for. -/
def versionLine : String := "emuchip 0.2.0"

end CommandLine

end Chip8
