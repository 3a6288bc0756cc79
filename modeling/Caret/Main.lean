import Caret.CommandLine.Run

/-!
# The program

Reads what a run depends on from the system, runs the command line, and prints the
outcome. Every file that the run may ask for is read beforehand, so that the run itself is
a function of its environment.
-/

namespace Caret.CommandLine

/-- The paths of the files that an invocation may read. -/
def pathsOf (directory : String) (i : Invocation) : List String :=
  match i.config with
  | some path => [path, i.input]
  | none =>
    (Path.ancestors directory).flatMap (fun d => Config.fileNames.map (Path.join d)) ++ [i.input]

/-- Whether answers are coloured: always if that is forced, never if it is refused, and
otherwise on a terminal unless it is switched off. -/
def usesColor (force refuse switch : Option String) (isTerminal : Bool) : Bool :=
  if force.any (· ≠ "0") then true
  else if refuse.isSome then false
  else switch.all (· ≠ "0") && isTerminal

/-- Why the system cannot read a file. -/
def reasonOf : IO.Error → FileError
  | .noFileOrDirectory .. => .notFound
  | .inappropriateType _ code _ => if code = 21 then .isADirectory else .notADirectory
  | e => .other e.toString

/-- What a file of the system holds. -/
def readBytes (path : String) : IO (Except FileError ByteArray) := do
  try return .ok (← IO.FS.readBinFile path)
  catch e => return .error (reasonOf e)

/-- The files of the system that an invocation may read. -/
def filesFor (directory : String) (i : Invocation) : IO Files := do
  let table ← (pathsOf directory i).mapM fun path => return (path, ← readBytes path)
  let read := fun path : String => (table.lookup path).getD (.error .notFound)
  let isFile := fun path : String => match read path with
    | .ok _ | .error (.other _) => true
    | .error _ => false
  return ⟨isFile, read⟩

/-- The standard input, if an invocation reads it. -/
def inputFor (i : Invocation) : IO ByteArray := do
  if isStandardInput i.input then (← IO.getStdin).readBinToEnd else return .empty

/-- The environment of an invocation. -/
def environmentFor (i : Invocation) : IO Environment := do
  let directory := (← IO.currentDir).toString
  let isTerminal ← (← IO.getStdout).isTty
  return {
    files := ← filesFor directory i
    directory
    input := ← inputFor i
    isColored := usesColor (← IO.getEnv "CLICOLOR_FORCE") (← IO.getEnv "NO_COLOR")
      (← IO.getEnv "CLICOLOR") isTerminal }

/-- Runs a command line and prints its outcome; gives the exit code. -/
def runProgram (args : List String) : IO UInt32 := do
  let outcome ← match Invocation.ofArgs args with
    | .error refusal => pure refusal.outcome
    | .ok i => do pure (outcomeOf (i.run (← environmentFor i)))
  IO.print outcome.stdout
  IO.eprint outcome.stderr
  return outcome.code.toUInt32

end Caret.CommandLine

/-- **Runs the program.** -/
def main (args : List String) : IO UInt32 := Caret.CommandLine.runProgram args
