import QueryAssist.Catalog.Entries
import QueryAssist.Text.Casing
import QueryAssist.Text.Path

/-!
# Catalogs

The tables and columns that queries are checked against. Schemas and tables are
keyed by their names in upper case; columns are compared ignoring the case of
ASCII letters.
-/

namespace QueryAssist

/-! ## Columns -/

/-- A column as far as it is described. -/
structure Column where
  name : String
  dataType : Option String := none
  description : Option String := none
  nullable : Option Bool := none
  isPrimaryKey : Option Bool := none
  deriving DecidableEq, Repr

namespace Column

/-- The column with a type. -/
def typed (column : Column) (dataType : String) : Column :=
  { column with dataType := some dataType }

/-- The column without nulls. -/
def notNull (column : Column) : Column := { column with nullable := some false }

/-- The column as (part of) the primary key, hence without nulls. -/
def primaryKey (column : Column) : Column :=
  { column with isPrimaryKey := some true, nullable := some false }

/-- Type, nullability and key in one line. -/
def summary (column : Column) : String :=
  String.intercalate " "
    ([column.dataType.getD "unknown"]
      ++ (if column.nullable = some false then ["NOT NULL"] else [])
      ++ (if column.isPrimaryKey = some true then ["PK"] else []))

end Column

/-! ## Tables -/

/-- A table or view. -/
structure Table where
  name : String
  schema : Option String := none
  description : Option String := none
  columns : List Column := []
  /-- What it is: a table, a view, … -/
  kind : Option String := none
  deriving DecidableEq, Repr

/-- Changes the first element that satisfies `p`. -/
def modifyFirst {α : Type} (p : α → Bool) (f : α → α) : List α → List α
  | [] => []
  | a :: rest => if p a then f a :: rest else a :: modifyFirst p f rest

namespace Table

/-- The first column of this name. -/
def column? (table : Table) (name : String) : Option Column :=
  table.columns.find? fun c => Text.sameAscii c.name name

/-- The table with the first column of this name changed. -/
def modifyColumn (table : Table) (name : String)
    (f : Column → Column) : Table :=
  { table with
    columns :=
      modifyFirst (fun c => Text.sameAscii c.name name) f table.columns }

/-- The name with the schema in front, if it has one with a name. -/
def qualifiedName (table : Table) : String :=
  match table.schema with
  | some schema =>
    if schema.isEmpty then table.name else schema ++ "." ++ table.name
  | none => table.name

/-- What the table is, as shown to a reader. -/
def kindLabel (table : Table) : String := table.kind.getD "table"

end Table

/-! ## Qualified names -/

/-- A table name with the schema in front of it, if any. -/
structure QualifiedName where
  schema : Option String := none
  name : String
  deriving DecidableEq, Repr

namespace QualifiedName

/-- Splits a dotted name at its last dot. Of what stands before it only the
last part counts. -/
def parse (s : String) : QualifiedName :=
  { schema := (beforeLastDot s).map lastSegment, name := lastSegment s }

/-- The dotted form. -/
def display (name : QualifiedName) : String :=
  match name.schema with
  | some schema => schema ++ "." ++ name.name
  | none => name.name

end QualifiedName

/-! ## Schemas and catalogs -/

/-- A schema: a named group of tables. -/
structure Schema where
  name : String
  /-- Tables by name in upper case. -/
  tables : Entries Table := []
  deriving DecidableEq, Repr

namespace Schema

/-- The schema with a table filed under its name, replacing an earlier one. -/
def fileTable (schema : Schema) (table : Table) : Schema :=
  { schema with tables := schema.tables.put (Text.upper table.name) table }

/-- The schema with one of its tables changed. -/
def modifyTable (schema : Schema) (key : String) (f : Table → Table) : Schema :=
  { schema with tables := schema.tables.modify f key }

end Schema

/-- All described tables. -/
structure Catalog where
  /-- Schemas by name in upper case. -/
  schemas : Entries Schema := []
  /-- Schema that unqualified names are looked up in first. -/
  defaultSchema : Option String := none
  /-- Whether tables are shown with their schema. -/
  showSchemaPrefix : Bool := false
  deriving DecidableEq, Repr

namespace Catalog

/-- The schema of this name. -/
def schema? (catalog : Catalog) (name : String) : Option Schema :=
  catalog.schemas.get? (Text.upper name)

/-- Whether the name is not empty and names a schema. -/
def hasSchema (catalog : Catalog) (name : String) : Bool :=
  !name.isEmpty && (catalog.schema? name).isSome

/-- The catalog with a schema of this name; one that is there keeps
its spelling. -/
def ensureSchema (catalog : Catalog) (name : String) : Catalog :=
  if (catalog.schema? name).isSome then catalog
  else
    { catalog with
      schemas := catalog.schemas.put (Text.upper name) { name := name } }

/-- Files a table under its own schema, else the default schema, else the schema
without a name. -/
def addTable (catalog : Catalog) (table : Table) : Catalog :=
  let schema := (table.schema <|> catalog.defaultSchema).getD ""
  let catalog := catalog.ensureSchema schema
  { catalog with
    schemas := catalog.schemas.modify (·.fileTable table) (Text.upper schema) }

/-- The catalog of a list of tables. -/
def ofTables (tables : List Table) : Catalog := tables.foldl addTable {}

/-- The table that a name stands for. A qualified name is looked up in its
schema; any other in the default schema and then in every schema in order. -/
def table? (catalog : Catalog) (name : String) : Option Table :=
  let name := QualifiedName.parse name
  let key := Text.upper name.name
  match name.schema with
  | some schema => (catalog.schema? schema).bind (·.tables.get? key)
  | none =>
    let inDefault :=
      (catalog.defaultSchema.bind catalog.schema?).bind (·.tables.get? key)
    inDefault <|> catalog.schemas.values.findSome? (·.tables.get? key)

/-- Whether a name stands for a table. -/
def hasTable (catalog : Catalog) (name : String) : Bool :=
  (catalog.table? name).isSome

/-- Entries with the table under `key` changed in the first schema
that has it. -/
def modifyInFirst (key : String) (f : Table → Table) :
    Entries Schema → Option (Entries Schema)
  | [] => none
  | (k, schema) :: rest =>
    if schema.tables.has key then some ((k, schema.modifyTable key f) :: rest)
    else (modifyInFirst key f rest).map ((k, schema) :: ·)

/-- Entries with the table under `key` changed in the schema under
`schemaKey`. -/
def modifyIn (schemaKey key : String) (f : Table → Table)
    (schemas : Entries Schema) : Option (Entries Schema) :=
  match schemas.get? schemaKey with
  | some schema =>
    if schema.tables.has key then
      some (schemas.modify (·.modifyTable key f) schemaKey)
    else none
  | none => none

/-- The catalog with the table that a name stands for changed, if
there is one. -/
def modifyTable? (catalog : Catalog) (name : String)
    (f : Table → Table) : Option Catalog :=
  let name := QualifiedName.parse name
  let key := Text.upper name.name
  let schemas? :=
    match name.schema with
    | some schema => modifyIn (Text.upper schema) key f catalog.schemas
    | none =>
      (catalog.defaultSchema.bind fun d =>
          modifyIn (Text.upper d) key f catalog.schemas)
        <|> modifyInFirst key f catalog.schemas
  schemas?.map fun schemas => { catalog with schemas }

/-- All tables, schema by schema. -/
def tables (catalog : Catalog) : List Table :=
  catalog.schemas.values.flatMap (·.tables.values)

/-- Names of the schemas that have one. -/
def schemaNames (catalog : Catalog) : List String :=
  (catalog.schemas.values.map (·.name)).filter (!·.isEmpty)

/-- A table's name as it is shown. -/
def displayName (catalog : Catalog) (table : Table) : String :=
  if catalog.showSchemaPrefix then table.qualifiedName else table.name

/-- Whether no schema has a table. -/
def isEmpty (catalog : Catalog) : Bool :=
  catalog.schemas.values.all (·.tables.isEmpty)

end Catalog

end QueryAssist
