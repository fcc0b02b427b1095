import QueryAssist.Catalog.Description
import QueryAssist.Command.Arguments
import QueryAssist.Text.Offset

/-!
# Settings

What the settings file says, and how command-line options take its place.
-/

namespace QueryAssist.Command

/-- Name of the settings file. -/
def settingsFile : String := "sqlsight.toml"

structure Settings where
  /-- Paths or patterns of schema files. -/
  schema : List String := []
  /-- Paths or patterns of the files to check. -/
  files : List String := []
  dialect : Option String := none
  format : Option String := none
  /-- Codes of findings that are not shown. -/
  disable : List String := []
  /-- A directory with schema scripts. -/
  schemaDir : Option String := none
  deriving DecidableEq, Repr

namespace Settings

def ofData? (data : Data) : Option Settings := do
  match ← Description.fieldsOf .lenient
      ["schema", "files", "dialect", "format", "disable", "schema-dir"]
      data with
  | [schema, files, dialect, format, disable, schemaDir] =>
    return { schema := ← Description.listOf Description.string? schema
             files := ← Description.listOf Description.string? files
             dialect := ← Description.optional Description.string? dialect
             format := ← Description.optional Description.string? format
             disable := ← Description.listOf Description.string? disable
             schemaDir := ← Description.optional Description.string? schemaDir }
  | _ => none

/-- Settings from the text of a settings file. -/
def ofText? (text : Text) : Option Settings :=
  (Data.Toml.parse? text).bind ofData?

/-- A list given on the command line takes the place of the one in
the settings. -/
def preferList (given : List String) (other : List String) : List String :=
  if given.isEmpty then other else given

def withSchemaOptions (settings : Settings)
    (options : SchemaOptions) : Settings :=
  { settings with
    schema := preferList options.schema settings.schema
    schemaDir := options.schemaDir <|> settings.schemaDir
    dialect := options.dialect <|> settings.dialect }

def withCheckOptions (settings : Settings) (files : List String)
    (format : Option Format) (disable : List String) : Settings :=
  { settings with
    files := preferList files settings.files
    format := format.map Format.name <|> settings.format
    disable := preferList disable settings.disable }

end Settings

/-- A format named in any letter case. -/
def Format.ofSetting? (name : String) : Option Format :=
  Format.all.find? (Text.sameAscii ·.name name)

end QueryAssist.Command
