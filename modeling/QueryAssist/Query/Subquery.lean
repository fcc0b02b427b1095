import QueryAssist.Query.Projection
import QueryAssist.Text.Parens

/-!
# Named subqueries

The definitions `name [(columns)] AS [NOT] [MATERIALIZED] (body)` of `WITH`
clauses. A definition that is cut off or has unbalanced parentheses is
passed over.
-/

namespace QueryAssist

/-- A definition found in a `WITH` clause. -/
structure Subquery where
  /-- Name in upper case. -/
  name : String
  columns : List OutputColumn
  wildcards : List Wildcard
  /-- Start of the name. -/
  start : Nat
  /-- After the closing parenthesis. -/
  stop : Nat
  /-- After the opening parenthesis. -/
  bodyStart : Nat
  /-- At the closing parenthesis. -/
  bodyStop : Nat
  /-- Paths, in upper case, of the tables that the body reads. -/
  fromTables : List String
  deriving DecidableEq, Repr

namespace Subquery

/-- The first declared column of this name. -/
def column? (subquery : Subquery) (name : String) : Option OutputColumn :=
  subquery.columns.find? fun c => Text.sameAscii c.name name

/-- Whether an offset lies in the body, its two ends included. -/
def containsBody (subquery : Subquery) (offset : Nat) : Bool :=
  subquery.bodyStart ≤ offset && offset ≤ subquery.bodyStop

end Subquery

/-! ## Reading a definition -/

/-- Number of tokens before the parenthesis that closes `depth` further ones
and then its own. -/
def groupLength (depth : Nat) : List Token → Option Nat
  | [] => none
  | t :: ts =>
    match t.kind with
    | .leftParen => (groupLength (depth + 1) ts).map (· + 1)
    | .rightParen =>
      if depth = 0 then some 0 else (groupLength (depth - 1) ts).map (· + 1)
    | _ => (groupLength depth ts).map (· + 1)

/-- The declared column names in front of `tokens`, if there are any, and the
tokens after them. -/
def readColumnList : List Token → Option (Option (List String) × List Token)
  | [] => none
  | t :: ts =>
    if t.kind == .leftParen then do
      let n ← groupLength 0 ts
      some (some (((ts.take n).filter Token.isName).map Token.name),
        ts.drop (n + 1))
    else some (none, t :: ts)

/-- Tokens without the keyword in front, if it is there. -/
def dropKeyword (keyword : String) : List Token → List Token
  | [] => []
  | t :: ts => if t.isKeyword keyword then ts else t :: ts

/-- The opening parenthesis of a body, and the tokens after it. -/
def readBodyOpening : List Token → Option (Token × List Token)
  | [] => none
  | t :: ts =>
    if t.isKeyword "AS" then
      match dropKeyword "MATERIALIZED" (dropKeyword "NOT" ts) with
      | [] => none
      | opening :: rest =>
        if opening.kind == .leftParen then some (opening, rest) else none
    else none

/-- Columns and wildcards of a definition. Declared names hide the wildcards and
replace the inferred columns; they take over the inferred sources when there are
as many of both. -/
def declareColumns (declared : Option (List String))
    (inferred : Projection) : Projection :=
  match declared with
  | none => inferred
  | some names =>
    { columns :=
        if names.length = inferred.columns.length then
          List.zipWith (fun name column => { column with name }) names
            inferred.columns
        else names.map fun name => { name := name } }

/-- Whether a definition may follow this token. -/
def Token.introducesDefinition (t : Token) : Bool :=
  t.isOneOf ["WITH", "RECURSIVE"] || t.kind == .comma

/-- The definition with the name `nameToken` between `previous` and `rest`, and
how many tokens of `rest` it takes. -/
def definitionAt (text clean : Text) (previous : Option Token)
    (nameToken : Token) (rest : List Token) : Option (Subquery × Nat) :=
  if nameToken.isIdentifier && previous.any Token.introducesDefinition then do
    let (declared, afterColumns) ← readColumnList rest
    let (opening, afterOpening) ← readBodyOpening afterColumns
    let close ← clean.matchingParen opening.start
    let body := afterOpening.takeWhile (·.start < close)
    let projection := declareColumns declared (projectionOf text body)
    some ({ name := nameToken.upper
            columns := projection.columns
            wildcards := projection.wildcards
            start := nameToken.start
            stop := close + 1
            bodyStart := opening.stop
            bodyStop := close
            fromTables := (tableRefs body).map TableRef.upper },
          rest.length - afterOpening.length + body.length + 1)
  else none

/-- Definitions in `tokens`, which follow `previous`, after the first
`skip` of them. -/
def definitionsFrom (text clean : Text) (skip : Nat) (previous : Option Token) :
    List Token → List Subquery
  | [] => []
  | t :: ts =>
    match skip with
    | n + 1 => definitionsFrom text clean n (some t) ts
    | 0 =>
      match definitionAt text clean previous t ts with
      | some (subquery, used) =>
        subquery :: definitionsFrom text clean used (some t) ts
      | none => definitionsFrom text clean 0 (some t) ts

/-- The named subqueries of a text with masked form `clean` and its `tokens`, in
order. Without a `WITH` there are none. -/
def subqueriesOf (text clean : Text) (tokens : List Token) : List Subquery :=
  if tokens.any (·.isKeyword "WITH") then
    definitionsFrom text clean 0 none tokens
  else []

end QueryAssist
