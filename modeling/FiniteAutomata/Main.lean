import FiniteAutomata.CommandLine.Run

/-!
# Main — the program

Reads the file that the command line names, runs, and prints the report. How many states there is
room to list is taken from the memory of the system; documents are read however deeply they are
nested.
-/

namespace FiniteAutomata

/-- The bytes that one listed state takes: its number, and the reference to it. -/
def bytesPerState : Nat := 36

/-- The machine with so much memory. -/
def Machine.ofMemory (bytes : Nat) : Machine where
  room := min longestList (bytes / bytesPerState)
  room_le := Nat.min_le_left ..
  tooDeep _ := false

/-- The bytes of memory of the system, if it tells. -/
def systemMemory? : IO (Option Nat) := do
  try
    let line := ((← IO.FS.readFile "/proc/meminfo").splitOn "\n").headD ""
    return (String.ofList (line.toList.filter Char.isDigit)).toNat?.map (1024 * ·)
  catch _ => return none

/-- What is in a file of the system. -/
def readSystemFile (name : String) : IO (Except CommandLine.ReadFailure (List UInt8)) := do
  try
    return .ok (← IO.FS.readBinFile name).toList
  catch
    | .noFileOrDirectory .. => return .error .missing
    | .inappropriateType .. => return .error .notDirectory
    | .illegalOperation .. => return .error .isDirectory
    | e => return .error ⟨5, toString e⟩

/-- A text whose code points are all printed, those that no encoding has by their numbers. -/
def Text.printed (s : Text) : String :=
  .join (s.map fun c => match c with
    | .char c => c.toString
    | .surrogate k => (Text.writtenOut (0xD800 + k)).toString?.getD "")

end FiniteAutomata

open FiniteAutomata in
/-- Runs the program on its arguments. -/
def main (arguments : List String) : IO UInt32 := do
  let m := ((← systemMemory?).map Machine.ofMemory).getD .ample
  let paths := match CommandLine.Request.ofArguments arguments with
    | .ok r => r.paths
    | .error _ => []
  let known ← paths.mapM fun path => do return (path, ← readSystemFile path)
  match CommandLine.run m arguments fun path => (known.lookup path).getD (.error .missing) with
  | .ok report =>
    (← IO.getStderr).putStr report.complaints.printed
    match report.output.toString? with
    | some output =>
      (← IO.getStdout).putStr output
      return report.code.toUInt32
    | none =>
      (← IO.getStderr).putStrLn "surrogates not allowed"
      return 1
  | .error e =>
    (← IO.getStderr).putStrLn e.message.printed
    return 1
