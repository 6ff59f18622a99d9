import Chip8.Program

/-! # The command

Reads the environment, runs the program on the files of the system, and prints its report.  The
window is a scripted one; its script is the text in the variable `CHIP8_WINDOW`, and its events are
the standard output.  The variable `CHIP8_LOG` holds a log filter.
-/

namespace Chip8.Command

/-- The reason that the system gives for a file that cannot be read. -/
def readError (e : IO.Error) : ReadError :=
  match e with
  | .noFileOrDirectory .. => .notFound
  -- a directory can be opened and only then fails to be read, which leaves the name out
  | .inappropriateType none .. => .isDirectory
  | .inappropriateType (some _) .. => .notDirectory
  | e => .other (toString e)

/-- The bytes of a file of the system. -/
def readFile (path : String) : IO (Except ReadError (List UInt8)) := do
  try
    let bytes ← IO.FS.readBinFile path
    return .ok bytes.toList
  catch e =>
    return .error (readError e)

/-- The files that a command line can make the program read, fetched beforehand. -/
def fetch (argv : List String) : IO (String → Except ReadError (List UInt8)) := do
  match CommandLine.parse argv with
  | .error _ => return fun _ => .error .notFound
  | .ok config =>
    let contents ← readFile config.rom
    return fun path => if path = config.rom then contents else .error .notFound

end Chip8.Command

open Chip8 in
def main (args : List String) : IO UInt32 := do
  let argv := "chip8" :: args
  let script := ((← IO.getEnv "CHIP8_WINDOW").map Script.ofText).getD .empty
  let filter := ((← IO.getEnv "CHIP8_LOG").map Filter.ofText).getD .standard
  let seed ← IO.rand 0 (UInt64.size - 1)
  let read ← Command.fetch argv
  let report := Program.run { read, script, random := .scattered (UInt64.ofNat seed) } argv
  for line in report.logLines filter do
    IO.eprintln line
  for line in report.output do
    IO.println line
  match report.conclusion with
  | .failed cause => for line in cause.lines do IO.eprintln line
  | _ => pure ()
  return UInt32.ofNat report.conclusion.exitStatus
