import QueryAssist.Catalog.Basic
import QueryAssist.Ddl.Statement

/-!
# What statements do to a catalog
-/

namespace QueryAssist.Ddl

/-! ## Columns -/

/-- The column after one more option. The last word on nulls counts; a primary
key has none. -/
def ColumnOption.apply (column : Column) : ColumnOption → Column
  | null => { column with nullable := some true }
  | notNull => column.notNull
  | primaryKey => column.primaryKey
  | comment text => { column with description := some text }
  | other => column

/-- The column that a definition stands for; nulls are allowed unless an option
forbids them. -/
def ColumnDefinition.column (definition : ColumnDefinition) : Column :=
  definition.options.foldl ColumnOption.apply
    { name := definition.name, dataType := some definition.dataType,
      nullable := some true }

/-! ## Tables -/

/-- The table with these columns as its primary key; names of no column are
passed over. -/
def markPrimaryKey (table : Table) (columns : List String) : Table :=
  columns.foldl (fun t name => t.modifyColumn name Column.primaryKey) table

def TableConstraint.apply (table : Table) : TableConstraint → Table
  | primaryKey columns => markPrimaryKey table columns
  | other => table

/-- A table without columns under a dotted path. -/
def tableAt (path kind : String) : Table :=
  let name := QualifiedName.parse path
  { name := name.name, schema := name.schema, kind := some kind }

/-- The table of a `CREATE TABLE`. -/
def newTable (path : String) (columns : List ColumnDefinition)
    (constraints : List TableConstraint) : Table :=
  constraints.foldl TableConstraint.apply
    { tableAt path "table" with columns := columns.map ColumnDefinition.column }

def Alteration.apply (table : Table) : Alteration → Table
  | addColumn column =>
    { table with columns := table.columns ++ [column.column] }
  | dropColumn name =>
    { table with
      columns := table.columns.filter fun c => !Text.sameAscii c.name name }
  | renameColumn old new =>
    table.modifyColumn old fun c => { c with name := new }
  | addConstraint constraint => constraint.apply table
  | other => table

/-! ## Views -/

/-- Column names of the table that a path names, none if there is no
such table. -/
def columnNames (catalog : Catalog) (path : String) : List String :=
  ((catalog.table? path).map fun t => t.columns.map (·.name)).getD []

def FromItem.columnNames (catalog : Catalog) : FromItem → List String
  | table path _ => Ddl.columnNames catalog path
  | derived => []

/-- Output columns of one select item. -/
def SelectItem.columnNames (catalog : Catalog)
    (sources : List FromItem) : SelectItem → List String
  | column name | named name => [name]
  | wildcard => sources.flatMap (·.columnNames catalog)
  | qualifiedWildcard path => Ddl.columnNames catalog path
  | unnamed => []

/-- Output columns of a query; those of a set operation are the ones of
its left side. -/
def Query.columnNames (catalog : Catalog) : Query → List String
  | select selection =>
    selection.items.flatMap (·.columnNames catalog selection.sources)
  | setOperation left _ => left.columnNames catalog
  | other => []

/-- The table of a `CREATE VIEW`. Columns that are not listed are those
of the query. -/
def newView (catalog : Catalog) (path : String) (columns : List String)
    (materialized : Bool) (query : Query) : Table :=
  let names := if columns.isEmpty then query.columnNames catalog else columns
  { tableAt path (if materialized then "materialized view" else "view") with
    columns := names.map fun name => { name := name } }

/-! ## Statements -/

/-- The catalog with a comment on a table or column, if there is one
of this name. -/
def describe (catalog : Catalog) (target : CommentTarget) (path : String)
    (text : Option String) : Catalog :=
  match target with
  | .table =>
    (catalog.modifyTable? path fun t => { t with description := text }).getD
      catalog
  | .column =>
    match beforeLastDot path with
    | some table =>
      (catalog.modifyTable? table
        (·.modifyColumn (lastSegment path) fun c =>
          { c with description := text })).getD catalog
    | none => catalog
  | .other => catalog

/-- The catalog after a statement. Changes of tables that are not there
do nothing. -/
def Statement.apply (catalog : Catalog) : Statement → Catalog
  | createTable path columns constraints =>
    catalog.addTable (newTable path columns constraints)
  | createView path columns materialized query =>
    catalog.addTable (newView catalog path columns materialized query)
  | alterTable path alterations =>
    (catalog.modifyTable? path fun t =>
      alterations.foldl Alteration.apply t).getD catalog
  | comment target path text => describe catalog target path text
  | other => catalog

end QueryAssist.Ddl
