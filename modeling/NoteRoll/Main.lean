import NoteRoll.CommandLine.Run
import NoteRoll.Decimal.Shortest

/-!
# The program

Runs the command line on the real files.
-/

open NoteRoll

/-- What a failed use of a file means. -/
def faultOf (e : IO.Error) : FileFault :=
  match e with
  | .noFileOrDirectory .. => .notFound
  | .noSuchThing .. => .notFound
  | .inappropriateType .. => .isDirectory
  | e => .other (toString e)

/-- The result of an action on files. -/
def attempt {β : Type} (action : IO β) : IO (Except FileFault β) := do
  match ← action.toBaseIO with
  | .ok b => pure (.ok b)
  | .error e => pure (.error (faultOf e))

/-- The use of the real files. -/
def realFiles : Files IO where
  read path := attempt (IO.FS.readFile path)
  openLog path := attempt (do let _ ← IO.FS.Handle.mk path .append)

/-- Runs the program on its arguments. -/
def main (args : List String) : IO UInt32 := do
  let around : Surroundings :=
    { home := ← IO.getEnv "HOME", logFilter := ← IO.getEnv "PIANOROLL_LOG" }
  let outcome ← runProgram Float realFiles around args
  IO.print outcome.output
  IO.eprint outcome.errors
  return outcome.code.toUInt32
