import QueryAssist.Data.Toml.Scalar
import QueryAssist.Data.Toml.Table

/-!
# Reading TOML
-/

namespace QueryAssist.Data.Toml

open Reader

/-- How many arrays and inline tables may stand around a value, and how long a
dotted key may be. -/
def nesting : Nat := 79

def blanks : Reader Char Unit := discard (runOf isBlank)

/-- Takes a line end. -/
def lineEnd : Reader Char Unit := mark '\n' <|> marks ['\r', '\n']

def comment : Reader Char Unit := do
  mark '#'
  discard (runOf isPrintable)

/-- Takes blanks, line ends and comments. -/
def filler : Reader Char Unit :=
  discard (many (discard (runOf1 isBlank) <|> lineEnd <|> comment))

/-! ## Keys -/

def isBareKeyChar (c : Char) : Bool := c.isAlphanum || c == '_' || c == '-'

/-- A key without dots. -/
def simpleKey : Reader Char String :=
  lineString <|> (do return String.ofList (← runOf1 isBareKeyChar))

/-- A dotted key: its path and its last name. -/
def key : Reader Char (List String × String) := do
  let parts ←
    separated1 (mark '.') (do blanks; let part ← simpleKey; blanks; return part)
  guard (parts.length ≤ nesting)
  match parts.getLast? with
  | some last => return (parts.dropLast, last)
  | none => failure

/-- A key with its value. -/
def pair (value : Reader Char Data) : Reader Char Pair := do
  let (path, last) ← key
  mark '='
  blanks
  return { path, key := last, value := ← value }

/-! ## Values -/

def list (value : Reader Char Data) : Reader Char Data := do
  mark '['
  let items ← separated (mark ',') (do filler; let v ← value; filler; return v)
  unless items.isEmpty do discard (optionally (mark ','))
  filler
  mark ']'
  return .list items

def inlineTable (value : Reader Char Data) : Reader Char Data := do
  mark '\x7b'
  blanks
  let pairs ← separated (mark ',') (do let p ← pair value; blanks; return p)
  blanks
  mark '\x7d'
  match addPairs [] pairs with
  | some fields => return .record (fieldsData fields)
  | none => failure

/-- A value with at most `depth` arrays and inline tables one in another. -/
def value : (depth : Nat) → Reader Char Data
  | 0 => scalar
  | depth + 1 => do
    match ← peek? with
    | some '[' => list (value depth)
    | some '\x7b' => inlineTable (value depth)
    | _ => scalar

/-! ## Documents -/

/-- What a line holds. -/
inductive Line where
  | blank
  | header (repeated : Bool) (path : List String) (key : String)
  | pair (pair : Pair)

/-- Takes the rest of a line: blanks and a comment. -/
def restOfLine : Reader Char Unit := do
  blanks
  discard (optionally comment)
  lineEnd <|> ending

def header : Reader Char Line := do
  let repeated ←
    (do marks ['[', '[']; return true) <|> (do mark '['; return false)
  let (path, last) ← key
  marks (if repeated then [']', ']'] else [']'])
  return .header repeated path last

def line : Reader Char Line := do
  blanks
  match ← peek? with
  | none => failure
  | some c =>
    let line ←
      if c == '#' || c == '\n' || c == '\r' then pure .blank
      else if c == '[' then header
      else Line.pair <$> pair (value nesting)
    restOfLine
    return line

/-- The values before the first header, and the headers with the values
under each. -/
def blocksOf (lines : List Line) : List Pair × List Block :=
  lines.foldr
    (fun line (pairs, blocks) =>
      match line with
      | .blank => (pairs, blocks)
      | .pair p => (p :: pairs, blocks)
      | .header repeated path key =>
        ([], { repeated, path, key, pairs } :: blocks))
    ([], [])

/-- The top-level table of a text. A byte order mark in front is left out. -/
def parse? (text : List Char) : Option Data := do
  let text := if text.head? = some '\ufeff' then text.tail else text
  let document : Reader Char (List Line) := do
    let lines ← many line
    blanks
    return lines
  let lines ← document.run? text
  let (pairs, blocks) := blocksOf lines
  let fields ← blocks.foldlM addBlock (← addPairs [] pairs)
  return .record (fieldsData fields)

end QueryAssist.Data.Toml
