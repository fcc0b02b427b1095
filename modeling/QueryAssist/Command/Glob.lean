import QueryAssist.Command.Disk

/-!
# Patterns of file names

`?` stands for one character, `*` for any number of them, brackets for one of a
set, and a component of two stars for any number of directories.
-/

namespace QueryAssist.Command

/-! ## Patterns -/

/-- A set of characters in brackets. -/
structure CharSet where
  /-- Ranges, ends included. -/
  ranges : List (Char × Char)
  negated : Bool
  deriving DecidableEq, Repr

def CharSet.accepts (set : CharSet) (c : Char) : Bool :=
  (set.ranges.any fun (first, last) => first ≤ c && c ≤ last) != set.negated

/-- A part of a component. -/
inductive Wild where
  | char (c : Char)
  | anyChar
  | anyText
  | set (set : CharSet)
  deriving DecidableEq, Repr

inductive Component where
  /-- A name that has to match. -/
  | name (pattern : List Wild)
  /-- Any number of directories. -/
  | anyDepth
  deriving DecidableEq, Repr

/-- The ranges that a set spells, after the first `skip` characters. -/
def rangesOf (skip : Nat) : List Char → List (Char × Char)
  | [] => []
  | c :: rest =>
    match skip with
    | n + 1 => rangesOf n rest
    | 0 =>
      match rest with
      | '-' :: last :: _ => (c, last) :: rangesOf 2 rest
      | _ => (c, c) :: rangesOf 0 rest

/-- The set after an opening bracket, and the number of characters it takes with
the closing one. A bracket in the first place belongs to the set. -/
def charSet? (text : List Char) : Option (CharSet × Nat) :=
  let negated := text.head? = some '!'
  let inner := if negated then text.drop 1 else text
  match inner with
  | [] => none
  | first :: rest =>
    let more := rest.takeWhile (· != ']')
    if more.length < rest.length then
      some (⟨rangesOf 0 (first :: more), negated⟩,
        (if negated then 1 else 0) + more.length + 2)
    else none

/-- The parts of a component, after its first `skip` characters. -/
def wildsOf (skip : Nat) : List Char → Option (List Wild)
  | [] => some []
  | c :: rest =>
    match skip with
    | n + 1 => wildsOf n rest
    | 0 =>
      match c with
      | '?' => (wildsOf 0 rest).map (.anyChar :: ·)
      | '*' =>
        if rest.head? = some '*' then none
        else (wildsOf 0 rest).map (.anyText :: ·)
      | '[' =>
        match charSet? rest with
        | some (set, taken) => (wildsOf taken rest).map (.set set :: ·)
        | none => none
      | c => (wildsOf 0 rest).map (.char c :: ·)

def component? (text : List Char) : Option Component :=
  if text = ['*', '*'] then some .anyDepth else (wildsOf 0 text).map .name

/-- The components of a pattern, without the empty one after a slash
at the end. -/
def pattern? (text : String) : Option (List Component) :=
  let parts := components text.toList
  let parts := if parts.getLast? = some [] then parts.dropLast else parts
  parts.mapM component?

/-- Whether a name matches. -/
def matchesName : List Wild → List Char → Bool
  | [], [] => true
  | [], _ :: _ => false
  | .anyText :: wilds, [] => matchesName wilds []
  | .anyText :: wilds, c :: cs =>
    matchesName wilds (c :: cs) || matchesName (.anyText :: wilds) cs
  | _ :: _, [] => false
  | .char c :: wilds, d :: cs => c == d && matchesName wilds cs
  | .anyChar :: wilds, _ :: cs => matchesName wilds cs
  | .set set :: wilds, d :: cs => set.accepts d && matchesName wilds cs

/-- The name that a component without wild parts stands for. -/
def literal? : List Wild → Option (List Char)
  | [] => some []
  | .char c :: wilds => (literal? wilds).map (c :: ·)
  | _ :: _ => none

/-! ## Expansion -/

/-- How deep directories are searched. -/
def depthLimit : Nat := 4096

/-- Names in the order of their characters. -/
def sortNames (names : List String) : List String :=
  names.mergeSort fun a b => decide (a ≤ b)

/-- Patterns after the directory wildcards in front. -/
def dropAnyDepth : List Component → List Component
  | .anyDepth :: rest => dropAnyDepth rest
  | pattern => pattern

/-- The parent directory and the directory itself, which only a pattern that
begins with a dot may name. -/
def links (wilds : List Wild) (path : String) : List String :=
  if wilds.head? = some (.char '.') then
    (["..", "."].filter (matchesName wilds ·.toList)).map (path ++ "/" ++ ·)
  else []

section

variable {m : Type → Type} [Monad m]

/-- The paths that match `pattern` in what `path` leads to. Each directory comes
before what it holds, and names in order. -/
def matchesFrom (disk : Disk m) :
    Nat → List Component → String → m (List String)
  | 0, _, _ => return []
  | _ + 1, [], path => return [path]
  | depth + 1, .name wilds :: rest, path => do
    let directory ← disk.isDirectory path
    match literal? wilds with
    | some name =>
      let name := String.ofList name
      let next := joinPath path name
      let found ←
        if name = "." ∨ name = ".." then pure directory else disk.has next
      if found then matchesFrom disk depth rest next else return []
    | none =>
      if !directory then return []
      else
        let names := sortNames (← disk.entries path)
        let next :=
          links wilds path
            ++ (names.filter (matchesName wilds ·.toList)).map (joinPath path)
        return (← next.mapM (matchesFrom disk depth rest)).flatten
  | depth + 1, .anyDepth :: rest, path => do
    if !(← disk.isDirectory path) then return []
    else
      let rest := dropAnyDepth rest
      let found ← (sortNames (← disk.entries path)).mapM fun n => do
        let child := joinPath path n
        let own ←
          match rest with
          | [] => if ← disk.isDirectory child then pure [child] else pure []
          | .name wilds :: more =>
            if matchesName wilds n.toList then matchesFrom disk depth more child
            else pure []
          | .anyDepth :: _ => pure []
        return own ++ (← matchesFrom disk depth (.anyDepth :: rest) child)
      return found.flatten

/-- The paths that match a pattern, unless it is malformed. A slash at the end
asks for directories. -/
def glob (disk : Disk m) (text : String) : m (Option (List String)) := do
  match pattern? text with
  | none => return none
  | some pattern =>
    let found ←
      if text.toList.head? = some '/' then
        matchesFrom disk depthLimit (pattern.drop 1) "/"
      else matchesFrom disk depthLimit pattern "."
    if text.toList.getLast? = some '/' then
      return some (← found.filterM disk.isDirectory)
    else return some found

/-- Whether a text is a pattern and not a plain path. -/
def isPattern (text : String) : Bool :=
  text.toList.any fun c => c == '*' || c == '?' || c == '['

end

end QueryAssist.Command
