import QueryAssist.Command.Run

/-!
# The command line
-/

namespace QueryAssist.Command

/-- An absolute path and the directories above it, nearest first. -/
def directoriesUp (path : String) : List String :=
  let parts := ((components path.toList).filter (· != [])).map String.ofList
  (List.range (parts.length + 1)).map fun n =>
    "/" ++ String.intercalate "/" (parts.take (parts.length - n))

/-- Access to the files of the machine. -/
def machineDisk : IO (Disk IO) := do
  let here ← IO.currentDir
  return {
    read := fun path => do
      try return some (← IO.FS.readFile (here / path)).toList
      catch _ => return none
    has := fun path => (here / path).pathExists
    isDirectory := fun path => (here / path).isDir
    entries := fun path => do
      try return (← (here / path).readDir).toList.map (·.fileName)
      catch _ => return []
    ancestors := directoriesUp here.toString }

end QueryAssist.Command

open QueryAssist.Command in
def main (arguments : List String) : IO UInt32 := do
  let outcome ← run (← machineDisk) arguments
  IO.print outcome.output.stdout
  IO.eprint outcome.output.stderr
  return outcome.exit.toUInt32
