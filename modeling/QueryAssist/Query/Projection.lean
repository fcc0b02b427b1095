import QueryAssist.Query.TableRef
import QueryAssist.Text.Blank
import QueryAssist.Text.Offset

/-!
# Select lists

What a select list puts out: named columns, with the reference or expression
behind each, and wildcards.
-/

namespace QueryAssist

/-- One named output column. -/
structure OutputColumn where
  name : String
  /-- The text of an expression that was given a name. -/
  expression : Option String := none
  /-- Qualifier of a plain reference. -/
  sourceTable : Option String := none
  /-- Column of a plain reference. -/
  sourceColumn : Option String := none
  deriving DecidableEq, Repr

/-- A wildcard item. -/
inductive Wildcard where
  | all
  /-- All columns of one table, given by its path in upper case. -/
  | qualified (path : String)
  deriving DecidableEq, Repr

/-- A select list as far as it is understood. -/
structure Projection where
  columns : List OutputColumn := []
  wildcards : List Wildcard := []
  deriving DecidableEq, Repr

/-! ## The tokens of the list -/

/-- Tokens after the first `SELECT` outside parentheses. -/
def afterSelect (depth : Nat) : List Token → Option (List Token)
  | [] => none
  | t :: ts =>
    match t.kind with
    | .leftParen => afterSelect (depth + 1) ts
    | .rightParen => afterSelect (depth - 1) ts
    | _ =>
      if depth = 0 ∧ t.isKeyword "SELECT" then some ts else afterSelect depth ts

/-- Tokens up to the clause that ends a select list. -/
def untilClause (depth : Nat) : List Token → List Token
  | [] => []
  | t :: ts =>
    match t.kind with
    | .leftParen => t :: untilClause (depth + 1) ts
    | .rightParen => t :: untilClause (depth - 1) ts
    | _ =>
      if depth = 0 ∧ t.isOneOf Keyword.afterProjection then []
      else t :: untilClause depth ts

/-- A token put in front of the first group. -/
def consGroup (t : Token) : List (List Token) → List (List Token)
  | [] => [[t]]
  | group :: groups => (t :: group) :: groups

/-- Groups between the commas outside parentheses; n commas give n
+ 1 groups. -/
def splitCommas (depth : Nat) : List Token → List (List Token)
  | [] => [[]]
  | t :: ts =>
    match t.kind with
    | .leftParen => consGroup t (splitCommas (depth + 1) ts)
    | .rightParen => consGroup t (splitCommas (depth - 1) ts)
    | .comma =>
      if depth = 0 then [] :: splitCommas depth ts
      else consGroup t (splitCommas depth ts)
    | _ => consGroup t (splitCommas depth ts)

/-- Tokens before the first closing parenthesis that has no partner
among them. -/
def enclosed (depth : Nat) : List Token → List Token
  | [] => []
  | t :: ts =>
    match t.kind with
    | .leftParen => t :: enclosed (depth + 1) ts
    | .rightParen => if depth = 0 then [] else t :: enclosed (depth - 1) ts
    | _ => t :: enclosed depth ts

/-! ## Items -/

/-- The wildcard that the tokens spell. -/
def wildcardOf (item : List Token) : Option Wildcard :=
  match item.reverse with
  | [] => none
  | last :: path =>
    if last.kind != .star then none
    else
      match path with
      | [] => some .all
      | dot :: qualifier =>
        if dot.kind == .dot then
          (dottedPath qualifier.reverse).map (.qualified <| Text.upper ·)
        else none

/-- The column named by `aliasToken` for the expression in the tokens `expr`. A
plain reference that is only renamed keeps its source. -/
def aliased (text : Text) (aliasToken : Token)
    (expr : List Token) : OutputColumn :=
  let start := (expr.head?.map Token.start).getD 0
  let stop := (expr.getLast?.map Token.stop).getD 0
  let column : OutputColumn :=
    { name := aliasToken.name,
      expression := some (String.ofList (Text.trim (text.slice start stop))) }
  match expr.reverse with
  | [t] =>
    if t.isIdentifier then { column with sourceColumn := some t.name }
    else column
  | t :: dot :: path =>
    if dot.kind == .dot && t.isName then
      match dottedPath path.reverse with
      | some qualifier =>
        { column with
          sourceTable := some qualifier, sourceColumn := some t.name }
      | none => column
    else column
  | [] => column

/-- Whether a name right after this token renames the expression that the
token ends. -/
def Token.endsExpression (t : Token) : Bool :=
  t.isName || t.kind == .rightParen || t.kind == .number || t.kind == .string

/-- The column that an item puts out: a reference, or an expression with a name,
with or without `AS`. -/
def columnOf (text : Text) (item : List Token) : Option OutputColumn :=
  match item.reverse with
  | [] => none
  | last :: rest =>
    if !last.isName then none
    else
      match rest with
      | [] =>
        if last.isIdentifier then
          some { name := last.name, sourceColumn := some last.name }
        else none
      | before :: earlier =>
        if before.isKeyword "AS" && !earlier.isEmpty then
          some (aliased text last earlier.reverse)
        else if before.kind == .dot then
          (dottedPath earlier.reverse).map fun qualifier =>
            { name := last.name, sourceTable := some qualifier,
              sourceColumn := some last.name }
        else if last.isIdentifier && before.endsExpression then
          some (aliased text last rest.reverse)
        else none

/-- An item without a leading `DISTINCT` or `ALL`. -/
def dropQuantifier : List Token → List Token
  | [] => []
  | t :: ts => if t.isOneOf ["DISTINCT", "ALL"] then ts else t :: ts

/-- The items read so far with one more in front. -/
def Projection.addItem (text : Text) (item : List Token)
    (projection : Projection) : Projection :=
  match wildcardOf item with
  | some wildcard =>
    { projection with wildcards := wildcard :: projection.wildcards }
  | none =>
    match columnOf text item with
    | some column => { projection with columns := column :: projection.columns }
    | none => projection

/-- The select list of the first `SELECT` outside parentheses. -/
def projectionOf (text : Text) (tokens : List Token) : Projection :=
  match afterSelect 0 tokens with
  | none => {}
  | some list =>
    (splitCommas 0 (untilClause 0 list)).foldr
      (fun item => Projection.addItem text (dropQuantifier item)) {}

/-- Names, in upper case, that the select lists of all `SELECT`s give to
expressions. -/
def selectAliases (text : Text) : List Token → List String
  | [] => []
  | t :: ts =>
    let here :=
      if t.isKeyword "SELECT" then
        let columns := (projectionOf text (enclosed 0 (t :: ts))).columns
        (columns.filter (·.expression.isSome)).map (Text.upper ·.name)
      else []
    here ++ selectAliases text ts

end QueryAssist
