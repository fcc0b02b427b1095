import QueryAssist.Text.Offset

/-!
# Access to files

What the commands need of the files around them, on a disk or in memory.
-/

namespace QueryAssist.Command

/-- Access to files by paths relative to the working directory. -/
structure Disk (m : Type → Type) where
  /-- The text of a file, if it can be read. -/
  read : String → m (Option Text)
  /-- Whether a path leads to a file or directory. -/
  has : String → m Bool
  isDirectory : String → m Bool
  /-- Names of the entries of a directory, in any order. -/
  entries : String → m (List String)
  /-- Paths of the working directory and of those above it, nearest first. -/
  ancestors : List String

/-- A path with one more component; the working directory itself is left out. -/
def joinPath (path name : String) : String :=
  if path = "." ∨ path = "./." then name
  else if path.toList.getLast? = some '/' then path ++ name
  else path ++ "/" ++ name

/-- The components of a path: what stands between its slashes. -/
def components : List Char → List (List Char)
  | [] => [[]]
  | c :: cs =>
    if c = '/' then [] :: components cs
    else
      match components cs with
      | [] => [[c]]
      | first :: rest => (c :: first) :: rest

end QueryAssist.Command
