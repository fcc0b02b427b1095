import QueryAssist.Catalog.Basic
import QueryAssist.Data.Json.Reader
import QueryAssist.Data.Toml.Reader

/-!
# Catalog descriptions

A catalog written down as data: schemas with their tables, tables without a
schema, and how names are shown. Each part is a record, or a list of the
record's fields in order. Fields that are not known are passed over; a known
field that comes twice is an error.
-/

namespace QueryAssist

/-- Why a description cannot be read. -/
inductive DescriptionError where
  /-- The text is not in the data format. -/
  | malformed
  /-- The data do not describe a catalog. -/
  | shape
  deriving DecidableEq, Repr

structure SchemaDescription where
  name : String
  tables : List Table := []
  deriving DecidableEq, Repr

structure Description where
  schemas : List SchemaDescription := []
  tables : List Table := []
  defaultSchema : Option String := none
  showSchemaPrefix : Bool := false
  deriving DecidableEq, Repr

namespace Description

/-! ## The catalog -/

/-- Adds the tables of one schema, which is there even without tables. A table
may name another schema. -/
def addSchema (catalog : Catalog) (schema : SchemaDescription) : Catalog :=
  (schema.tables.map fun t =>
    { t with schema := some (t.schema.getD schema.name) }).foldl
    Catalog.addTable (catalog.ensureSchema schema.name)

/-- The catalog that is described. -/
def toCatalog (description : Description) : Catalog :=
  let start : Catalog :=
    { defaultSchema := description.defaultSchema,
      showSchemaPrefix := description.showSchemaPrefix }
  description.tables.foldl Catalog.addTable
    (description.schemas.foldl addSchema start)

/-! ## Reading data -/

/-- What a list of fields may hold. -/
inductive Listing where
  /-- No more items than fields. -/
  | exact
  /-- Items after the last field are passed over. -/
  | lenient
  deriving DecidableEq, Repr

/-- The values of the named fields, in that order. -/
def fieldsOf (listing : Listing) (names : List String) :
    Data → Option (List (Option Data))
  | .record fields =>
    let known := fields.map Prod.fst |>.filter names.contains
    if known.Nodup then
      some (names.map fun n => (fields.find? (·.1 == n)).map Prod.snd)
    else none
  | .list items =>
    if listing = .exact ∧ names.length < items.length then none
    else
      some ((items.take names.length).map some
        ++ List.replicate (names.length - items.length) none)
  | _ => none

def string? : Data → Option String
  | .string s => some s
  | _ => none

def bool? : Data → Option Bool
  | .bool b => some b
  | _ => none

/-- A field that may be missing or null. -/
def optional (decode : Data → Option α) : Option Data → Option (Option α)
  | none | some .null => some none
  | some value => (decode value).map some

/-- A list field, empty if it is missing. -/
def listOf (decode : Data → Option α) : Option Data → Option (List α)
  | none => some []
  | some (.list items) => items.mapM decode
  | some _ => none

def column? (listing : Listing) (data : Data) : Option Column := do
  match ← fieldsOf listing
      ["name", "dataType", "description", "nullable", "isPrimaryKey"] data with
  | [name, dataType, description, nullable, isPrimaryKey] =>
    return { name := ← name.bind string?
             dataType := ← optional string? dataType
             description := ← optional string? description
             nullable := ← optional bool? nullable
             isPrimaryKey := ← optional bool? isPrimaryKey }
  | _ => none

def table? (listing : Listing) (data : Data) : Option Table := do
  match ← fieldsOf listing
      ["name", "schema", "description", "columns", "type"] data with
  | [name, schema, description, columns, kind] =>
    return { name := ← name.bind string?
             schema := ← optional string? schema
             description := ← optional string? description
             columns := ← listOf (column? listing) columns
             kind := ← optional string? kind }
  | _ => none

def schema? (listing : Listing) (data : Data) : Option SchemaDescription := do
  match ← fieldsOf listing ["name", "tables"] data with
  | [name, tables] =>
    return { name := ← name.bind string?,
             tables := ← listOf (table? listing) tables }
  | _ => none

def description? (listing : Listing) (data : Data) : Option Description := do
  match ← fieldsOf listing
      ["schemas", "tables", "defaultSchema", "showSchemaPrefix"] data with
  | [schemas, tables, defaultSchema, showSchemaPrefix] =>
    return { schemas := ← listOf (schema? listing) schemas
             tables := ← listOf (table? listing) tables
             defaultSchema := ← optional string? defaultSchema
             showSchemaPrefix := ← match showSchemaPrefix with
               | none => some false
               | some value => bool? value }
  | _ => none

/-- Data as a description, or else as a list of tables. -/
def ofData? (data : Data) : Option Description :=
  description? .exact data <|>
    (listOf (table? .exact) (some data)).map fun tables => { tables := tables }

/-- The description that a JSON text holds. The shape of the value is looked at
before what follows it. -/
def ofJson (text : List Char) : Except DescriptionError Description :=
  match Data.Json.leading? text with
  | none => .error .malformed
  | some (data, rest) =>
    match ofData? data with
    | none => .error .shape
    | some description =>
      if rest.all Data.Json.isBlank then .ok description else .error .malformed

/-- The description that a TOML text holds. -/
def ofToml (text : List Char) : Except DescriptionError Description :=
  match Data.Toml.parse? text with
  | none => .error .malformed
  | some data =>
    match description? .lenient data with
    | none => .error .shape
    | some description => .ok description

end Description

/-! ## Writing data -/

/-- The column as data, without what is not described. -/
def Column.toData (column : Column) : Data :=
  .record ([("name", .string column.name)]
    ++ Data.field? "dataType" .string column.dataType
    ++ Data.field? "description" .string column.description
    ++ Data.field? "nullable" .bool column.nullable
    ++ Data.field? "isPrimaryKey" .bool column.isPrimaryKey)

/-- The table as data, without what is not described. -/
def Table.toData (table : Table) : Data :=
  .record ([("name", .string table.name)]
    ++ Data.field? "schema" .string table.schema
    ++ Data.field? "description" .string table.description
    ++ [("columns", .list (table.columns.map Column.toData))]
    ++ Data.field? "type" .string table.kind)

end QueryAssist
