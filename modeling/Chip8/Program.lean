import Chip8.CommandLine.Parser
import Chip8.Log.Filter
import Chip8.Session

/-! # The program

Everything between the command line and the exit status: read the command line, load the program,
open the window, play the session, and say what went wrong.  What the program meets outside, files
and window and random bytes, is its `Surroundings`; what it leaves behind is a `Report`.
-/

namespace Chip8

/-- What the program meets outside. -/
structure Surroundings where
  /-- The bytes of the file at a path, or why they cannot be read. -/
  read : String → Except ReadError (List UInt8)
  script : Script
  random : RandomSource

/-- Why the program failed. -/
inductive ProgramError where
  /-- No program was brought into memory. -/
  | notLoaded (path : String) (cause : LoadError)
  | notOpened (cause : WindowError)
  | crashed (cause : MachineError)
  | notShown (cause : WindowError)
  deriving DecidableEq, Repr, Inhabited

namespace ProgramError

/-- What failed, and the reasons from the nearest to the farthest. -/
def chain : ProgramError → String × List String
  | .notLoaded path cause => ("failed to load " ++ path, cause.chain)
  | .notOpened cause => ("failed to open window", [cause.message])
  | .crashed cause => ("emulation stopped", [cause.message])
  | .notShown cause => (cause.message, [])

/-- The lines of a text behind a heading; the lines after the first are filled up with blanks. -/
def hanging (heading : String) (text : String) : List String :=
  match text.splitOn "\n" with
  | [] => [heading]
  | first :: rest =>
    (heading ++ first)
      :: rest.map fun line => String.ofList (List.replicate heading.length ' ') ++ line

/-- The lines of the reasons, numbered if there is more than one. -/
def reasonLines : List String → List String
  | [] => []
  | [only] => hanging "    " only
  | reasons =>
    (reasons.zipIdx.map fun (reason, k) =>
      hanging ("    " ++ Numeral.decimal k ++ ": ") reason).flatten

/-- The lines that say why the program failed. -/
def lines (e : ProgramError) : List String :=
  let (failure, reasons) := e.chain
  let head := ("Error: " ++ failure).splitOn "\n"
  if reasons.isEmpty then head else head ++ ["", "Caused by:"] ++ reasonLines reasons

end ProgramError

/-- How the program came to its end. -/
inductive Conclusion where
  /-- The command line was not one to run with. -/
  | refused (cause : Refusal)
  /-- The session ended as sessions do. -/
  | ended
  | failed (cause : ProgramError)
  | faulted (cause : Fault)
  deriving DecidableEq, Repr, Inhabited

namespace Conclusion

/-- The conclusion that the end of a session brings. -/
def ofEnding : Ending → Conclusion
  | .closed | .ranOff => .ended
  | .crashed cause => .failed (.crashed cause)
  | .notShown cause => .failed (.notShown cause)
  | .faulted cause => .faulted cause

def exitStatus : Conclusion → Nat
  | .refused .help | .refused .version | .ended => 0
  | .failed _ => 1
  | .refused _ => 2
  | .faulted _ => 101

end Conclusion

/-- What the program leaves behind. -/
structure Report where
  conclusion : Conclusion
  events : List WindowEvent
  /-- Every record, whether it is shown or not. -/
  log : List Notice

namespace Report

/-- The end of a program that never opened its window. -/
def withoutWindow (conclusion : Conclusion) (log : List Notice) : Report :=
  { conclusion, events := [], log }

/-- The lines of the standard output. -/
def output (r : Report) : List String :=
  match r.conclusion with
  | .refused .version => [CommandLine.versionLine]
  | _ => r.events.map WindowEvent.line

/-- The lines of the records that a filter shows. -/
def logLines (r : Report) (filter : Filter) : List String :=
  (r.log.filter filter.admits).map Notice.alignedLine

end Report

namespace Program

/-- Everything up to the first turn: loads the program, opens the window, and works out the pace.
    What cannot be prepared is a report already. -/
def prepare (around : Surroundings) (config : Config) : Except Report (Session × Pace) :=
  let machine := (Machine.fresh around.random).setTimerMode config.timerMode
  match machine.loadRomFile around.read config.rom with
  | .error cause => .error (.withoutWindow (.failed (.notLoaded config.rom cause)) [])
  | .ok (machine, log) =>
    match Screen.create around.script config.scale with
    | .error cause => .error (.withoutWindow (.failed (.notOpened cause)) log)
    | .ok screen =>
      match config.cyclesPerFrame with
      | .error cause =>
        .error { conclusion := .faulted cause, events := screen.window.events.toList, log }
      | .ok cycles =>
        let started := log ++ [Notice.running cycles config.timerMode]
        .ok ({ machine, screen, log := started.toArray }, { cycles, timerMode := config.timerMode })

/-- The report of a session that came to its end. -/
def reportOf (played : Session × Ending) : Report where
  conclusion := .ofEnding played.2
  events := played.1.screen.window.events.toList
  log := played.1.log.toList

/-- The program with its configuration known. -/
def runWith (around : Surroundings) (config : Config) : Report :=
  match prepare around config with
  | .error report => report
  | .ok (session, pace) => reportOf (session.play pace)

def run (around : Surroundings) (argv : List String) : Report :=
  match CommandLine.parse argv with
  | .error cause => .withoutWindow (.refused cause) []
  | .ok config => runWith around config

end Program

end Chip8
