import QueryAssist.Scope.Basic
import QueryAssist.Text.Word

/-!
# The context of a cursor

What is expected at a place of a text, judged by the tokens of its statement
that end before the word at the cursor.
-/

namespace QueryAssist

inductive ContextKind where
  | table
  | column
  /-- A table of a schema, after the schema's name and a dot. -/
  | schema
  | general
  deriving DecidableEq, Repr

def ContextKind.name : ContextKind → String
  | .table => "table"
  | .column => "column"
  | .schema => "schema"
  | .general => "general"

/-- What the cursor expects, and what it can refer to. -/
structure CursorContext where
  kind : ContextKind
  /-- The path before a dot right in front of the word. -/
  qualifier : Option String
  /-- Paths of the tables in scope, each once. -/
  tables : List String
  /-- Path of the table for every alias and name in scope. -/
  aliases : Entries String
  deriving DecidableEq, Repr

/-- A list without repetitions, each element at its first place. -/
def distinct [BEq α] (seen : List α) : List α → List α
  | [] => []
  | a :: rest =>
    if seen.contains a then distinct seen rest
    else a :: distinct (a :: seen) rest

/-! ## The tokens before the word

These functions take the tokens before the word last one first. -/

/-- The path that ends at a dot in front of the word, and the token
before the path. -/
def qualifierBefore : List Token → Option (String × Option Token)
  | dot :: last :: earlier =>
    if dot.kind == .dot && last.isName && last.stop == dot.start then
      let more := pathTail earlier
      some (joinNames (last :: earlier.take more).reverse,
        (earlier.drop more).head?)
    else none
  | _ => none

/-- Whether a column is expected right after the last token. -/
def expectsColumn : List Token → Bool
  | [] => false
  | last :: earlier =>
    last.isOneOf Keyword.beforeColumn
      || (last.isKeyword "BY"
        && earlier.head?.any (·.isOneOf ["ORDER", "GROUP"]))
      || last.kind == .comma

/-- Whether the last token stands in a select list, or after a `FROM` that no
further clause has ended. -/
def inSelectOrFrom (before : List Token) : Bool :=
  match before.find? (·.isOneOf ["SELECT", "FROM"]) with
  | none => false
  | some t =>
    t.isKeyword "SELECT"
      || !(before.takeWhile (!·.isKeyword "FROM")).any
        (·.isOneOf ["WHERE", "GROUP", "ORDER"])

/-- What is expected after the tokens, where `wordStart` is the start of the
word at the cursor. -/
def expectation (wordStart : Nat) (before : List Token) :
    ContextKind × Option String :=
  match before with
  | [] => (.general, none)
  | last :: _ =>
    match (if last.stop = wordStart then qualifierBefore before else none) with
    | some (qualifier, previous) =>
      (if previous.any (·.isOneOf Keyword.beforeTable) then .schema
          else .column, some qualifier)
    | none =>
      if last.isOneOf Keyword.beforeTable then (.table, none)
      else if expectsColumn before || inSelectOrFrom before then (.column, none)
      else (.general, none)

/-! ## Classification -/

namespace Document

/-- Tokens of the statement at a boundary that end before the word there,
last one first. -/
def tokensBefore (document : Document) (boundary : Nat) : List Token :=
  let (start, _) := document.clean.statementBounds boundary
  let wordStart := document.clean.wordStart boundary
  (document.tokens.filter fun t =>
    start ≤ t.start && t.stop ≤ wordStart).reverse

/-- The context of a cursor. -/
def contextAt (document : Document) (offset : Nat) : CursorContext :=
  let boundary := document.clean.floor offset
  let (kind, qualifier) :=
    expectation (document.clean.wordStart boundary)
      (document.tokensBefore boundary)
  let bindings := Resolver.bindingsAt { document, catalog := none } boundary
  { kind, qualifier
    tables := distinct [] (bindings.tables.map (·.name))
    aliases := bindings.aliases }

end Document

/-- The context of a cursor in a text. -/
def classify (text : Text) (offset : Nat) : CursorContext :=
  (Document.ofText text).contextAt offset

end QueryAssist
