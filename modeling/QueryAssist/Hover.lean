import QueryAssist.Dialect.Basic
import QueryAssist.Scope.Lookup
import QueryAssist.Text.Position

/-!
# Hover

What the name at a cursor stands for: a column, a subquery, a table or a
function of the dialect.
-/

namespace QueryAssist

/-- What is shown of a column. -/
structure ColumnCard where
  name : String
  /-- The table or subquery it belongs to. -/
  source : String
  dataType : Option String := none
  nullable : Option Bool := none
  primaryKey : Bool := false
  description : Option String := none
  /-- The expression behind a renamed column of a subquery. -/
  expression : Option String := none
  deriving DecidableEq, Repr

inductive HoverContent where
  | column (card : ColumnCard)
  | subquery (name : String) (columns : List String)
  | table (table : Table)
  | function (info : FunctionInfo)
  deriving DecidableEq, Repr

structure Hover where
  content : HoverContent
  /-- The name at the cursor. -/
  span : Span
  deriving DecidableEq, Repr

/-! ## Content -/

/-- What a catalog says of a column, shown under a name and a source. -/
def ColumnCard.ofColumn (column : Column) (name source : String)
    (expression : Option String) : ColumnCard :=
  { name, source, expression
    dataType := column.dataType
    nullable := column.nullable
    primaryKey := column.isPrimaryKey = some true
    description := column.description }

/-- A column; one of a subquery shows what its table says, if it can be
traced to one. -/
def Resolver.columnCard (r : Resolver) : ColumnRef → ColumnCard
  | .table table column =>
    .ofColumn column column.name ("table " ++ table.name) none
  | .subquery s column =>
    let source := "subquery " ++ s.name
    match r.trace (.subquery s column) with
    | some (_, traced) => .ofColumn traced column.name source column.expression
    | none => { name := column.name, source, expression := column.expression }

def Resolver.hoverSource (r : Resolver) : Source → HoverContent
  | .subquery s =>
    .subquery s.name
      ((r.sourceColumns (.subquery s)).columns.map ColumnRef.name)
  | .table table => .table table

/-- Whether the name is that of a schema of the catalog. -/
def Resolver.namesSchema (r : Resolver) (name : String) : Bool :=
  r.catalog.any (·.hasSchema name)

/-- A name in front of a dot: a table, subquery or alias. A schema is shown only
if the name is bound to a table. -/
def Resolver.hoverQualifier (r : Resolver) (bindings : Bindings)
    (name : String) : Option HoverContent :=
  if r.namesSchema name && (bindings.resolve name).isNone then none
  else (r.source? (bindings.target name) bindings.visible).map r.hoverSource

/-- A name behind a qualifier: one of its columns, or a table if the qualifier
is a schema. -/
def Resolver.hoverQualified (r : Resolver) (bindings : Bindings)
    (qualifier name : String) : Option HoverContent :=
  match r.lookupQualified bindings qualifier name with
  | .found _ column => some (.column (r.columnCard column))
  | _ =>
    if r.namesSchema qualifier then
      (r.catalog.bind (·.table? (qualifier ++ "." ++ name))).map .table
    else none

/-- A name on its own: a subquery, a column in scope, a table or a function, in
this order. -/
def Resolver.hoverBare (r : Resolver) (bindings : Bindings) (dialect : Dialect)
    (name : String) : Option HoverContent :=
  match bindings.subquery? name with
  | some s => some (r.hoverSource (.subquery s))
  | none =>
    match r.lookupUnqualified bindings name with
    | .found _ column => some (.column (r.columnCard column))
    | _ =>
      match r.catalog.bind (·.table? name) with
      | some table => some (.table table)
      | none => (dialect.function? name).map .function

/-! ## The name at the cursor -/

/-- A token with the tokens around it. -/
structure Focus where
  /-- Tokens before it, last one first. -/
  before : List Token
  token : Token
  following : List Token
  deriving DecidableEq, Repr

/-- The first token that satisfies `p` among `tokens`, which follow `before`. -/
def Focus.find? (p : Token → Bool)
    (before : List Token) : List Token → Option Focus
  | [] => none
  | t :: ts =>
    if p t then some ⟨before, t, ts⟩ else Focus.find? p (t :: before) ts

/-- The name that contains an offset, or else the one that ends there. -/
def Focus.atOffset? (tokens : List Token) (offset : Nat) : Option Focus :=
  Focus.find? (fun t => t.isName && t.start ≤ offset && offset < t.stop)
      [] tokens
    <|> Focus.find? (fun t => t.isName && t.stop == offset) [] tokens

/-- The dotted path right before the token. -/
def Focus.qualifier? (focus : Focus) : Option String :=
  let path := pathTail focus.before
  if path = 0 then none else some (joinNames (focus.before.take path).reverse)

/-- What the name at a cursor stands for, if it is known. -/
def hover (text : Text) (offset : Nat) (catalog : Option Catalog := none)
    (dialect : Dialect := .postgresql) : Option Hover := do
  let document := Document.ofText text
  let focus ← Focus.atOffset? document.tokens offset
  let word := focus.token
  let r : Resolver := { document, catalog }
  let bindings := r.bindingsAt word.start
  let content ←
    if focus.following.head?.any (·.kind == .dot) then
      r.hoverQualifier bindings word.name
    else
      match focus.qualifier? with
      | some qualifier => r.hoverQualified bindings qualifier word.name
      | none => r.hoverBare bindings dialect word.name
  return { content, span := .locate text word.start (word.stop - word.start) }

/-! ## Rendering -/

/-- A text after an empty line, if there is one. -/
def paragraph (text : Option String) : String :=
  match text with
  | some s => "\n\n" ++ s
  | none => ""

def inCode (s : String) : String := "\x60" ++ s ++ "\x60"

def ColumnCard.markdown (card : ColumnCard) : String :=
  "**" ++ card.name ++ "** " ++ inCode (card.dataType.getD "unknown")
    ++ (if card.primaryKey then " PK" else "")
    ++ (if card.nullable = some false then " NOT NULL" else "")
    ++ paragraph (some card.source)
    ++ paragraph (card.expression.map inCode)
    ++ paragraph card.description

def Table.markdown (table : Table) : String :=
  let name := match table.schema with
    | some schema => schema ++ "." ++ table.name
    | none => table.name
  "**" ++ name ++ "** (" ++ table.kindLabel ++ ")"
    ++ paragraph table.description ++ "\n"
    ++ String.join
      (table.columns.map fun c => "\n- " ++ c.name ++ " " ++ inCode c.summary)

/-- The content as Markdown. -/
def HoverContent.markdown : HoverContent → String
  | .column card => card.markdown
  | .subquery name columns =>
    "**" ++ name ++ "** (subquery)\n\n" ++ String.intercalate ", " columns
  | .table t => t.markdown
  | .function info => inCode info.signature ++ "\n\n" ++ info.description

end QueryAssist
