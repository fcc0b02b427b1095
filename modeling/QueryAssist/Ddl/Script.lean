import QueryAssist.Text.Blank
import QueryAssist.Text.Offset

/-!
# Statements of a script

A script is cut at its semicolons, except in string literals, dollar-quoted
texts and comments. This is done without reading the statements, so that one
that cannot be read does not hide the others.
-/

namespace QueryAssist.Ddl

/-- What a semicolon stands in. -/
inductive ScriptMode where
  | code
  | string
  /-- In a text between two copies of a tag such as `$body$`. -/
  | dollarQuoted (tag : Text)
  | lineComment
  | blockComment
  deriving DecidableEq, Repr

/-- Whether a character may stand in the tag of a dollar quote. -/
def isTagChar (c : Char) : Bool := c.isAlphanum || c == '_'

/-- The dollar-quote tag in front of a text. -/
def dollarTag? : Text → Option Text
  | '$' :: rest =>
    let name := rest.takeWhile isTagChar
    if (rest.drop name.length).head? = some '$' then some ('$' :: name ++ ['$'])
    else none
  | _ => none

/-- The mode after `c`, which `rest` follows, and how many further
characters it takes. -/
def ScriptMode.next (mode : ScriptMode) (c : Char)
    (rest : Text) : ScriptMode × Nat :=
  match mode with
  | code =>
    if c == '\'' then (string, 0)
    else if c == '$' then
      match dollarTag? (c :: rest) with
      | some tag => (dollarQuoted tag, tag.length - 1)
      | none => (code, 0)
    else if c == '-' && rest.head? == some '-' then (lineComment, 1)
    else if c == '/' && rest.head? == some '*' then (blockComment, 1)
    else (code, 0)
  | string =>
    if c == '\'' then
      (if rest.head? == some '\'' then (string, 1) else (code, 0))
    else (string, 0)
  | dollarQuoted tag =>
    if tag.isPrefixOf (c :: rest) then (code, tag.length - 1)
    else (dollarQuoted tag, 0)
  | lineComment => (if c == '\n' then code else lineComment, 0)
  | blockComment =>
    if c == '*' && rest.head? == some '/' then (code, 1) else (blockComment, 0)

/-- Whether a semicolon in this mode ends a statement, when `rest` follows it.
The last character of a block comment that is never closed counts as code. -/
def ScriptMode.endsStatement (mode : ScriptMode) (rest : Text) : Bool :=
  mode == .code || (mode == .blockComment && rest.isEmpty)

/-- A character put in front of the first piece. -/
def consPiece (c : Char) : List Text → List Text
  | [] => [[c]]
  | piece :: pieces => (c :: piece) :: pieces

/-- The pieces between the semicolons that end statements, where the first
`taken` characters are already accounted for. -/
def piecesFrom (mode : ScriptMode) (taken : Nat) : Text → List Text
  | [] => [[]]
  | c :: cs =>
    match taken with
    | n + 1 => consPiece c (piecesFrom mode n cs)
    | 0 =>
      if c == ';' && mode.endsStatement cs then [] :: piecesFrom .code 0 cs
      else
        let (mode, taken) := mode.next c cs
        consPiece c (piecesFrom mode taken cs)

/-- The statements of a script, without those that are blank. -/
def splitStatements (script : Text) : List Text :=
  (piecesFrom .code 0 script).filter (!Text.allBlank ·)

end QueryAssist.Ddl
