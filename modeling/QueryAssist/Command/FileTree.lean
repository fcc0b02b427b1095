import QueryAssist.Command.Disk

/-!
# Files in memory

A directory tree as the list of its files.
-/

namespace QueryAssist.Command

/-- A path from the top of a tree: names of directories and last of a file
or directory. -/
abbrev Location := List String

structure FileTree where
  /-- Files with their locations. -/
  files : List (Location × Text)
  /-- Location of the working directory, which exists. -/
  workingDirectory : Location := []

namespace FileTree

def file? (tree : FileTree) (location : Location) : Option Text :=
  (tree.files.find? (·.1 == location)).map Prod.snd

/-- A directory is what files or the working directory stand in, and the top. -/
def isDirectoryAt (tree : FileTree) (location : Location) : Bool :=
  location.isPrefixOf tree.workingDirectory
    || tree.files.any fun (file, _) =>
      location.isPrefixOf file && location != file

/-- One step of a walk from a location, which has to be a directory. There is
nothing above the top. -/
def step (tree : FileTree) (location : Location)
    (component : String) : Option Location :=
  if !tree.isDirectoryAt location then none
  else if component = "" ∨ component = "." then some location
  else if component = ".." then
    (if location.isEmpty then none else some location.dropLast)
  else some (location ++ [component])

/-- The location that a relative path leads to. -/
def locate (tree : FileTree) (path : String) : Option Location :=
  if path.isEmpty || path.toList.head? == some '/' then none
  else
    ((components path.toList).map String.ofList).foldlM tree.step
      tree.workingDirectory

/-- Names of what stands in a directory. -/
def entriesAt (tree : FileTree) (location : Location) : List String :=
  let below :=
    (tree.files.map Prod.fst ++ [tree.workingDirectory]).filter fun l =>
    location.isPrefixOf l && location != l
  (below.filterMap fun l => (l.drop location.length).head?).eraseDups

/-- Access to the files of a tree. -/
def disk (tree : FileTree) : Disk Id where
  read path := (tree.locate path).bind tree.file?
  has path :=
    (tree.locate path).any fun l =>
      tree.isDirectoryAt l || (tree.file? l).isSome
  isDirectory path := (tree.locate path).any tree.isDirectoryAt
  entries path := ((tree.locate path).map tree.entriesAt).getD []
  ancestors :=
    (List.range (tree.workingDirectory.length + 1)).map fun n =>
      if n = 0 then "." else String.intercalate "/" (List.replicate n "..")

end FileTree

end QueryAssist.Command
