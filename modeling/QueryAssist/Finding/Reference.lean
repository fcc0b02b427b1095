import QueryAssist.Dialect.Basic
import QueryAssist.Finding.Basic
import QueryAssist.Finding.Suggestion
import QueryAssist.Scope.Lookup

/-!
# Findings against a catalog

Tables and columns that nothing in scope defines. A catalog may be partial, so
all of these are warnings, and where too little is known nothing is reported.
-/

namespace QueryAssist

/-- What the checks of one document against a catalog share. -/
structure ReferenceCheck where
  resolver : Resolver
  catalog : Catalog
  /-- The tables that the whole document names. -/
  tables : List TableRef
  /-- Words that name types, never columns. -/
  dataTypes : List String

namespace ReferenceCheck

def ofDocument (document : Document) (catalog : Catalog)
    (dialect : Dialect) : ReferenceCheck :=
  { resolver := { document, catalog := some catalog }
    catalog
    tables := tableRefs document.tokens
    dataTypes := dialect.vocabulary.dataTypes }

def text (check : ReferenceCheck) : Text := check.resolver.document.text

def tokens (check : ReferenceCheck) : List Token :=
  check.resolver.document.tokens

/-! ## Tables -/

/-- The finding for a table that is neither in the catalog nor a subquery. -/
def unknownTable? (check : ReferenceCheck)
    (table : TableRef) : Option Finding :=
  if check.resolver.subqueries.any (·.name == table.upper)
    || check.catalog.hasTable table.name then none
  else
    let similar :=
      similarName table.shortName (check.catalog.tables.map (·.name))
    some (.locate check.text table.start (table.stop - table.start)
      (.unknownTable table.name) (similar.map .useName))

def unknownTables (check : ReferenceCheck) : List Finding :=
  check.tables.filterMap check.unknownTable?

/-! ## Bindings met so far

References are resolved with the bindings of the first reference met in
the same span. -/

/-- The bindings for an offset, and the bindings met with them. -/
def bindingsVia (check : ReferenceCheck) (met : List Bindings)
    (offset : Nat) : Bindings × List Bindings :=
  let scope := check.resolver.scopeAt offset
  let span := check.resolver.span scope offset
  match met.find? (·.span == span) with
  | some bindings => (bindings, met)
  | none =>
    let bindings := check.resolver.bindingsAt offset
    (bindings, met ++ [bindings])

/-- The finding for a column that a lookup misses. -/
def unknownColumn? (check : ReferenceCheck)
    (column : Token) : Lookup → Option Finding
  | .missing sources available =>
    some (.locate check.text column.start (column.stop - column.start)
      (.unknownColumn column.name (sources.map Source.describe) available)
      ((similarName column.name available).map .useName))
  | .found .. | .indeterminate => none

/-- Whether an offset lies in the path of a table reference. -/
def inTablePath (check : ReferenceCheck) (offset : Nat) : Bool :=
  check.tables.any fun t => t.start ≤ offset && offset < t.stop

/-! ## Qualified columns -/

/-- A dotted run of names in the text. -/
structure QualifiedRun where
  /-- Names with the dots between them. -/
  segments : List Token
  /-- The token after the run. -/
  following : Option Token
  deriving DecidableEq, Repr

/-- The longest dotted runs of two or more names in `tokens`, which follow
`previous`, after the first `skip` tokens. No run starts after a dot. -/
def qualifiedRuns (skip : Nat) (previous : Option Token) :
    List Token → List QualifiedRun
  | [] => []
  | t :: ts =>
    match skip with
    | n + 1 => qualifiedRuns n (some t) ts
    | 0 =>
      let more := pathTail ts
      if t.isName && !previous.any (·.kind == .dot) && more != 0 then
        { segments := t :: ts.take more, following := (ts.drop more).head? }
          :: qualifiedRuns more (some t) ts
      else qualifiedRuns 0 (some t) ts

namespace QualifiedRun

/-- The last name. -/
def column? (run : QualifiedRun) : Option Token := run.segments.getLast?

/-- The names before the last, joined by dots. -/
def qualifier (run : QualifiedRun) : String :=
  joinNames run.segments.dropLast.dropLast

end QualifiedRun

/-- The column of a run, unless the run is a call or the path of a table. -/
def referencedColumn? (check : ReferenceCheck)
    (run : QualifiedRun) : Option Token :=
  if run.following.any (·.kind == .leftParen)
      || (run.segments.head?.map Token.start).any check.inTablePath then none
  else run.column?

/-- Findings for qualified columns, and the bindings met. -/
def unknownQualified (check : ReferenceCheck) (met : List Bindings) :
    List QualifiedRun → List Finding × List Bindings
  | [] => ([], met)
  | run :: runs =>
    match check.referencedColumn? run with
    | none => check.unknownQualified met runs
    | some column =>
      let (bindings, met) := check.bindingsVia met column.start
      let found := check.unknownColumn? column
        (check.resolver.lookupQualified bindings run.qualifier column.name)
      let (findings, met) := check.unknownQualified met runs
      (found.toList ++ findings, met)

/-! ## Columns without a qualifier -/

/-- Names in upper case that the document gives to something: after `AS`, in
select lists, to tables and to subqueries. -/
def definedNames (check : ReferenceCheck) : List String :=
  let afterAs :=
    (check.tokens.zip check.tokens.tail).filter fun (a, b) =>
      a.isKeyword "AS" && b.isName
  afterAs.map (·.2.upper)
    ++ selectAliases check.text check.tokens
    ++ check.tables.filterMap (·.aliasName.map Text.upper)
    ++ check.resolver.subqueries.map (·.name)

/-- Whether a token between two others is a column without a qualifier. -/
def isBareColumn (check : ReferenceCheck) (defined : List String)
    (previous : Option Token) (t : Token) (following : Option Token) : Bool :=
  t.isIdentifier
    && !following.any (fun n => n.kind == .leftParen || n.kind == .dot)
    && !previous.any (fun p =>
      p.kind == .dot || p.text == "::" || p.isKeyword "AS"
        || p.isOneOf Keyword.beforeTable)
    && !(t.kind == .word && Keyword.isOneOf check.dataTypes t.text)
    && !previous.any (fun p => check.tables.any (·.stop == p.stop))
    && !check.inTablePath t.start
    && !defined.contains t.upper

/-- Whether columns without a qualifier are checked at an offset: in the main
query, and in the bodies of subqueries that read from another subquery. -/
def checksBareColumnsAt (check : ReferenceCheck) (offset : Nat) : Bool :=
  match check.resolver.scopeAt offset with
  | .main => true
  | .subquery s =>
    let earlier := check.resolver.visible (.subquery s) offset
    s.fromTables.any fun table =>
      earlier.any fun e => e.name == table && e.name != s.name
  | .unstructured => false

/-- Findings for columns without a qualifier in `tokens`, which follow
`previous`. -/
def unknownBare (check : ReferenceCheck) (defined : List String)
    (met : List Bindings) (previous : Option Token) : List Token → List Finding
  | [] => []
  | t :: ts =>
    if check.isBareColumn defined previous t ts.head?
      && check.checksBareColumnsAt t.start then
      let (bindings, met) := check.bindingsVia met t.start
      let found :=
        check.unknownColumn? t
          (check.resolver.lookupUnqualified bindings t.name)
      found.toList ++ check.unknownBare defined met (some t) ts
    else check.unknownBare defined met (some t) ts

/-! ## All of them -/

/-- Unknown columns, first those with a qualifier. -/
def unknownColumns (check : ReferenceCheck) : List Finding :=
  let (qualified, met) :=
    check.unknownQualified [] (qualifiedRuns 0 none check.tokens)
  qualified ++ check.unknownBare check.definedNames met none check.tokens

end ReferenceCheck

end QueryAssist
