import ContainerArgs.CommandLine.Help
import ContainerArgs.Run

/-!
# The program

Reads the manifest file, and writes the output and the reports.
-/

namespace ContainerArgs

def readAll (file : IO.FS.Handle) : IO FileContent := do
  try
    let bytes ← file.readBinToEnd
    return .bytes bytes.toList
  catch _ => return .unreadable

def readFile (path : String) : IO FileContent := do
  try
    let file ← IO.FS.Handle.mk path .read
    readAll file
  catch e => return .missing (toString e)

def report (n : RunNote) : IO Unit :=
  IO.eprintln n.message

/-- Writes the output to its file, or else to the standard output.  The answer
is the exit status. -/
def deliver (target : Option String) (text : String) : IO UInt32 := do
  match target with
  | none =>
    IO.print text
    return 0
  | some path =>
    try
      IO.FS.writeFile path text
      report (.wrote (.ofText path))
      return 0
    catch e =>
      IO.eprintln
        ("Error: Failed to write output '" ++ path ++ "': " ++ toString e)
      return 1

/-- Performs an event.  The answer is the exit status if it is the last one. -/
def perform : Run.Event → IO UInt32
  | .report n => do
    report n
    return 0
  | .output target text => deliver target text
  | .failure fault => do
    IO.eprintln ("Error: " ++ fault.message)
    return 1

/-- Carries out an invocation.  The answer is the exit status. -/
def carryOut (inv : CommandLine.Invocation) : IO UInt32 := do
  let file ← readFile inv.config
  (Run.events inv file).foldlM (fun _ e => perform e) 0

end ContainerArgs

open ContainerArgs in
/-- The program: its exit status is 2 for a faulty command line, 1 for a run
that fails, and else 0. -/
def main (args : List String) : IO UInt32 := do
  match CommandLine.parse args with
  | .ok inv => carryOut inv
  | .error refusal =>
    if refusal.isFault then
      IO.eprintln ("error: " ++ refusal.text)
      return 2
    else
      IO.print refusal.text
      return 0
