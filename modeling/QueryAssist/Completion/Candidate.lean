import QueryAssist.Dialect.Basic
import QueryAssist.Scope.Lookup

/-!
# Candidates for completion

What may be offered at a place, before repetitions are left out and the
rest is ranked.
-/

namespace QueryAssist

inductive CandidateKind where
  | subquery
  | table
  | column
  | schema
  | keyword
  | reservedWord
  | systemService
  | systemCatalog
  | systemObject
  | function
  | dataType
  | snippet
  deriving DecidableEq, Repr

namespace CandidateKind

def name : CandidateKind → String
  | subquery => "subquery"
  | table => "table"
  | column => "column"
  | schema => "schema"
  | keyword => "keyword"
  | reservedWord => "reserved-word"
  | systemService => "system-service"
  | systemCatalog => "system-catalog"
  | systemObject => "system-object"
  | function => "function"
  | dataType => "data-type"
  | snippet => "snippet"

/-- Rank of the kind: what the document and the catalog name comes before the
words of the dialect, and templates come last. -/
def tier : CandidateKind → Nat
  | subquery | table | column | schema => 0
  | keyword | reservedWord | systemService | systemCatalog | systemObject
  | function | dataType => 1
  | snippet => 2

end CandidateKind

inductive InsertFormat where
  | plain
  /-- A template with places to fill in. -/
  | snippet
  deriving DecidableEq, Repr

def InsertFormat.name : InsertFormat → String
  | .plain => "plain"
  | .snippet => "snippet"

structure Candidate where
  kind : CandidateKind
  label : String
  detail : String
  documentation : Option String := none
  insertText : String := label
  format : InsertFormat := .plain
  deriving DecidableEq, Repr

namespace Candidate

def ofColumn : ColumnRef → Candidate
  | .table table column =>
    { kind := .column
      label := column.name
      detail :=
        if column.dataType.isSome then
          column.summary ++ " (" ++ table.name ++ ")"
        else table.name
      documentation := column.description }
  | .subquery s column =>
    { kind := .column
      label := column.name
      detail := "subquery " ++ s.name
      documentation := column.expression }

def ofSubquery (s : Subquery) : Candidate :=
  let columns := String.intercalate ", " (s.columns.map (·.name))
  { kind := .subquery
    label := s.name
    detail := "subquery"
    documentation := if columns.isEmpty then none else some columns }

/-- A table under the name by which it is offered. -/
def ofTable (label : String) (table : Table) : Candidate :=
  { kind := .table, label, detail := table.kindLabel,
    documentation := table.description }

def ofSchema (name : String) : Candidate :=
  { kind := .schema, label := name, detail := "schema" }

def ofFunction (f : FunctionInfo) : Candidate :=
  { kind := .function
    label := f.name
    detail := f.signature
    documentation := some f.description
    insertText := f.name ++ "($\x7b1\x7d)"
    format := .snippet }

def ofSnippet (s : Snippet) : Candidate :=
  { kind := .snippet
    label := s.label
    detail := s.description
    documentation := some s.template
    insertText := s.template
    format := .snippet }

/-- A word of a dialect. -/
def ofWord (kind : CandidateKind) (detail word : String) : Candidate :=
  { kind, label := word, detail }

end Candidate

/-- The tables of a catalog under the names by which they are shown, then
its schemas. -/
def Catalog.candidates (catalog : Catalog) : List Candidate :=
  (catalog.tables.map fun t => .ofTable (catalog.displayName t) t)
    ++ catalog.schemaNames.map .ofSchema

/-- The tables of a schema. -/
def Schema.candidates (schema : Schema) : List Candidate :=
  schema.tables.values.map fun t => .ofTable t.name t

/-- The words and templates of a dialect. -/
def Vocabulary.candidates (v : Vocabulary) : List Candidate :=
  v.keywords.map (.ofWord .keyword "keyword")
    ++ v.reservedWords.map
      (fun (word, since) =>
        .ofWord .reservedWord ("reserved since " ++ since) word)
    ++ v.systemServices.map (.ofWord .systemService "system service")
    ++ v.systemCatalogs.map (.ofWord .systemCatalog "system catalog")
    ++ v.systemObjects.map (.ofWord .systemObject "system object")
    ++ v.functions.map .ofFunction
    ++ v.dataTypes.map (.ofWord .dataType "data type")
    ++ v.snippets.map .ofSnippet

/-- Every column of a source. -/
def Resolver.columnCandidates (r : Resolver)
    (source : Source) : List Candidate :=
  (r.sourceColumns source).columns.map .ofColumn

/-- The subqueries that can be named. -/
def Bindings.candidates (bindings : Bindings) : List Candidate :=
  bindings.visible.map .ofSubquery

end QueryAssist
