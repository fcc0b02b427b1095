import QueryAssist.Text.Path
import QueryAssist.Token.Basic

/-!
# Table references

The tables that `FROM` and `JOIN` name, with their aliases. Derived tables and
table functions are passed over.
-/

namespace QueryAssist

/-! ## Dotted paths -/

/-- The names of tokens that are names divided by single dots. -/
def pathNames : List Token → Option (List String)
  | [] => none
  | [t] => if t.isName then some [t.name] else none
  | t :: dot :: rest =>
    if t.isName && dot.kind == .dot then (pathNames rest).map (t.name :: ·)
    else none

/-- The dotted path that the tokens spell, quotes removed. -/
def dottedPath (tokens : List Token) : Option String :=
  (pathNames tokens).map (String.intercalate ".")

/-- Number of tokens in front that continue a path: dots with a name
after each. -/
def pathTail : List Token → Nat
  | dot :: t :: rest =>
    if dot.kind == .dot && t.isName then pathTail rest + 2 else 0
  | _ => 0

/-! ## References -/

/-- A table named after `FROM` or `JOIN`. -/
structure TableRef where
  /-- The path as written, quotes removed. -/
  name : String
  aliasName : Option String := none
  /-- Bytes that the path covers. -/
  start : Nat
  stop : Nat
  deriving DecidableEq, Repr

namespace TableRef

/-- The path in upper case. -/
def upper (table : TableRef) : String := Text.upper table.name

/-- The last name of the path. -/
def shortName (table : TableRef) : String := lastSegment table.name

end TableRef

/-- The alias in front of `tokens`, and the number of tokens it takes with its
`AS`. An `AS` without an alias is taken too. -/
def readAlias : List Token → Option String × Nat
  | [] => (none, 0)
  | t :: rest =>
    if t.isKeyword "AS" then
      match rest with
      | a :: _ =>
        if a.isName && !Keyword.isClause a.text then (some a.name, 2)
        else (none, 1)
      | [] => (none, 1)
    else if t.isIdentifier && !Keyword.isClause t.text then (some t.name, 1)
    else (none, 0)

/-- The reference in front of `tokens`, and the number of tokens it takes. -/
def readTableRef : List Token → Option (TableRef × Nat)
  | [] => none
  | first :: rest =>
    if !first.isIdentifier then none
    else
      let more := pathTail rest
      let following := rest.drop more
      if following.head?.any (·.kind == .leftParen) then none
      else do
        let path := first :: rest.take more
        let name ← dottedPath path
        let last ← path.getLast?
        let (aliasName, used) := readAlias following
        some ({ name, aliasName, start := first.start, stop := last.stop },
          1 + more + used)

/-- The references in front of `tokens`, after the first `skip` of them. Past a
comma the list goes on if `commas` allows it. -/
def readTableList (commas : Bool) (skip : Nat) : List Token → List TableRef
  | [] => []
  | t :: ts =>
    match skip with
    | n + 1 => readTableList commas n ts
    | 0 =>
      let only := if t.isKeyword "ONLY" then 1 else 0
      match readTableRef ((t :: ts).drop only) with
      | none => []
      | some (table, used) =>
        let goesOn :=
          commas && ((t :: ts).drop (only + used)).head?.any (·.kind == .comma)
        table :: if goesOn then readTableList commas (only + used) ts else []

/-- References in `tokens`, which follow `previous` inside the parentheses
`calls`, innermost first. An entry of `calls` tells whether its parenthesis
opens the arguments of a function that may hold a `FROM`. -/
def tableRefsFrom (previous : Option Token)
    (calls : List Bool) : List Token → List TableRef
  | [] => []
  | t :: ts =>
    match t.kind with
    | .leftParen =>
      tableRefsFrom (some t)
        (previous.any (·.isOneOf Keyword.withFromArgument) :: calls) ts
    | .rightParen => tableRefsFrom (some t) calls.tail ts
    | _ =>
      let isFrom := t.isKeyword "FROM"
      let here :=
        if (isFrom || t.isKeyword "JOIN") && calls.head? != some true then
          readTableList isFrom 0 ts
        else []
      here ++ tableRefsFrom (some t) calls ts

/-- The tables named after every `FROM` and `JOIN` of the tokens, in order. -/
def tableRefs (tokens : List Token) : List TableRef :=
  tableRefsFrom none [] tokens

end QueryAssist
