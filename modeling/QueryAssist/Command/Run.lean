import QueryAssist.Command.Glob
import QueryAssist.Command.Report
import QueryAssist.Command.Settings
import QueryAssist.Ddl.Grammar
import QueryAssist.Finding.Analysis

/-!
# Running a command

A command reads files through a `Disk` and ends with an exit code and the text
it printed. What was printed before a failure stays.
-/

namespace QueryAssist.Command

/-- Why a command cannot be carried out. -/
inductive Failure where
  | unreadable (path : String)
  | settings (path : String)
  | dialect (error : UnknownDialect)
  | format (name : String)
  | pattern (text : String)
  | description (path : String)
  | noFiles
  deriving DecidableEq, Repr

def Failure.message : Failure → String
  | unreadable path => "cannot read " ++ path
  | settings path => "invalid settings in " ++ path
  | dialect error => error.message
  | format name => "invalid variant: " ++ name
  | pattern text => "invalid pattern " ++ text
  | description path => "invalid schema description in " ++ path
  | noFiles =>
    "No query files specified. "
      ++ "Use positional arguments or configure in sqlsight.toml"

/-- What a command has printed. -/
structure Output where
  stdout : String := ""
  stderr : String := ""
  deriving DecidableEq, Repr

/-- How a command ends. -/
structure Outcome where
  exit : Nat
  output : Output := {}
  deriving DecidableEq, Repr

/-- A command under way. -/
abbrev Session (m : Type → Type) := ExceptT Failure (StateT Output m)

section

variable {m : Type → Type} [Monad m]

def print (text : String) : Session m Unit :=
  modify fun o => { o with stdout := o.stdout ++ text }

def printError (text : String) : Session m Unit :=
  modify fun o => { o with stderr := o.stderr ++ text }

/-- A step that asks the disk. -/
def ask (step : m α) : Session m α := ExceptT.lift (StateT.lift step)

/-! ## Files -/

def readText (disk : Disk m) (path : String) : Session m Text := do
  match ← ask (disk.read path) with
  | some text => return text
  | none => throw (.unreadable path)

/-- The paths that one pattern stands for. -/
def expandPattern (disk : Disk m)
    (text : String) : Session m (List String) := do
  match ← ask (glob disk text) with
  | some paths => return paths
  | none => throw (.pattern text)

/-- Patterns are replaced by what they match; other paths stay. -/
def expandAll (disk : Disk m)
    (texts : List String) : Session m (List String) := do
  let paths ← texts.mapM fun text =>
    if isPattern text then expandPattern disk text else pure [text]
  return paths.flatten

/-! ## Settings -/

def readSettings (disk : Disk m) (path : String) : Session m Settings := do
  match Settings.ofText? (← readText disk path) with
  | some settings => return settings
  | none => throw (.settings path)

/-- The settings file that is nearest. -/
def findSettings (disk : Disk m) : List String → Session m Settings
  | [] => return {}
  | directory :: above => do
    let path := joinPath directory settingsFile
    if ← ask (disk.has path) then readSettings disk path
    else findSettings disk above

/-- The settings named on the command line, or else the nearest ones. -/
def loadSettings (disk : Disk m)
    (options : SchemaOptions) : Session m Settings := do
  let settings ← match options.config with
    | some path => readSettings disk path
    | none => findSettings disk disk.ancestors
  return settings.withSchemaOptions options

def chooseDialect (name : Option String) : Session m Dialect :=
  match name with
  | none => return .postgresql
  | some name =>
    match Dialect.parse name with
    | .ok dialect => return dialect
    | .error error => throw (.dialect error)

def chooseFormat (name : Option String) : Session m Format :=
  match name with
  | none => return .human
  | some name =>
    match Format.ofSetting? name with
    | some format => return format
    | none => throw (.format name)

/-! ## Catalogs -/

/-- What follows the last dot of a file name, in lower case. A name that only
starts with a dot has none. -/
def extension? (path : String) : Option String :=
  let name :=
    (((components path.toList).filter fun c =>
      c != [] && c != ['.']).getLast?).getD []
  let before := name.reverse.dropWhile (· != '.')
  if name = ['.', '.'] ∨ before.length ≤ 1 then none
  else some (Text.lower (String.ofList (name.drop before.length)))

/-- A description adds its tables, names the default schema if it has one, and
may ask for schema names. -/
def addDescribed (catalog described : Catalog) : Catalog :=
  described.tables.foldl Catalog.addTable
    { catalog with
      defaultSchema := described.defaultSchema <|> catalog.defaultSchema
      showSchemaPrefix :=
        catalog.showSchemaPrefix || described.showSchemaPrefix }

/-- Reads schema files. Scripts go into one catalog, which is kept also where
one of them cannot be loaded; descriptions are kept for later. -/
def readSchemaFiles (disk : Disk m) (dialect : Dialect) (catalog : Catalog)
    (described : List Catalog) :
    List String → Session m (Catalog × List Catalog)
  | [] => return (catalog, described)
  | file :: files => do
    let text ← readText disk file
    match extension? file with
    | some "json" =>
      readSchemaFiles disk dialect catalog
        (described ++ [← take file (Description.ofJson text)]) files
    | some "toml" =>
      readSchemaFiles disk dialect catalog
        (described ++ [← take file (Description.ofToml text)]) files
    | _ =>
      let loaded := Ddl.loadScriptInto dialect catalog text
      readSchemaFiles disk dialect loaded.catalog described files
where
  take (file : String) (read : Except DescriptionError Description) :
      Session m Catalog :=
    match read with
    | .ok description => return description.toCatalog
    | .error _ => throw (.description file)

/-- The catalog of all schema files; without files there is none. -/
def loadCatalog (disk : Disk m) (dialect : Dialect)
    (files : List String) : Session m (Option Catalog) := do
  if files.isEmpty then return none
  let (catalog, described) ←
    readSchemaFiles disk dialect (Ddl.emptyCatalog dialect) [] files
  return some (described.foldl addDescribed catalog)

/-- The schema files of the settings, and the scripts in the
schema directory. -/
def schemaFiles (disk : Disk m)
    (settings : Settings) : Session m (List String) := do
  let files ← expandAll disk settings.schema
  match settings.schemaDir with
  | none => return files
  | some directory =>
    return files ++ (← expandPattern disk (directory ++ "/**/*.sql"))

/-! ## Commands -/

def showFindings (format : Format) (file : String) (source : Text)
    (findings : List Finding) : Session m Unit :=
  match format with
  | .human => printError (String.join (findings.map (humanFinding file source)))
  | .json => print (prettyLine (jsonFindings file findings))
  | .sarif => print (prettyLine (sarifFindings file findings))

/-- Checks one file and gives the findings that are not disabled. -/
def checkFile (disk : Disk m) (catalog : Option Catalog) (dialect : Dialect)
    (format : Format) (disable : List String)
    (file : String) : Session m (List Finding) := do
  let source ← readText disk file
  let findings :=
    (analyze source catalog dialect).filter fun f => !disable.contains f.code
  showFindings format file source findings
  return findings

/-- Checks files; the answer is whether there are errors. -/
def check (disk : Disk m) (settings : Settings)
    (quiet : Bool) : Session m Bool := do
  let dialect ← chooseDialect settings.dialect
  let format ← chooseFormat settings.format
  let catalog ← loadCatalog disk dialect (← schemaFiles disk settings)
  let files ← expandAll disk settings.files
  if files.isEmpty then throw .noFiles
  let findings :=
    (← files.mapM
      (checkFile disk catalog dialect format settings.disable)).flatten
  let errors := (findings.filter (·.severity == .error)).length
  let warnings := (findings.filter (·.severity == .warning)).length
  if !quiet then printError (checkSummary errors warnings files.length)
  return errors > 0

/-- The catalog and dialect for completion and hover. -/
def editorContext (disk : Disk m) (options : SchemaOptions) :
    Session m (Option Catalog × Dialect) := do
  let settings ← loadSettings disk options
  let dialect ← chooseDialect settings.dialect
  return (← loadCatalog disk dialect (← schemaFiles disk settings), dialect)

/-- Carries out a request; the answer is whether errors were found. -/
def carryOut (disk : Disk m) (quiet : Bool) : Request → Session m Bool
  | .check files options format disable => do
    let settings ← loadSettings disk options
    check disk (settings.withCheckOptions files format disable) quiet
  | .complete place options limit json => do
    let source ← readText disk place.file
    let (catalog, dialect) ← editorContext disk options
    let items :=
      (complete source (source.offsetOf ⟨place.line, place.column⟩)
        catalog dialect).take limit
    print (if json then prettyLine (.list (items.map CompletionItem.toData))
      else completionTable items)
    return false
  | .hover place options json => do
    let source ← readText disk place.file
    let (catalog, dialect) ← editorContext disk options
    let found :=
      hover source (source.offsetOf ⟨place.line, place.column⟩) catalog dialect
    print (if json then prettyLine (.ofOption Hover.toData found)
      else (found.map (·.content.markdown ++ "\n")).getD "")
    return false
  | .schema files dialect json => do
    let catalog := (← loadCatalog disk (← chooseDialect dialect) files).getD {}
    print (if json then prettyLine catalog.toData else catalogListing catalog)
    return false
  | .outline file => do
    print (prettyLine
      (.list ((parseSubqueries (← readText disk file)).map Subquery.toData)))
    return false

/-! ## Outcomes -/

/-- How the program is used. -/
def usage : String :=
  "Tolerant SQL analysis: diagnostics, completion and hover\n\n"
    ++ "Usage: sqlsight [OPTIONS] <COMMAND>\n\n"
    ++ "Commands:\n"
    ++ "  check     Check SQL files for structural problems and schema mismatches\n"
    ++ "  complete  List completion candidates at a position\n"
    ++ "  hover     Show hover information at a position\n"
    ++ "  schema    Display schema information\n"
    ++ "  outline   Print the named subqueries of a file as JSON\n"
    ++ "  help      Print this message or the help of the given subcommand(s)\n\n"
    ++ "Options:\n"
    ++ "  -v, --verbose...  Enable verbose output\n"
    ++ "  -q, --quiet       Suppress non-error output\n"
    ++ "  -h, --help        Print help\n"
    ++ "  -V, --version     Print version\n"

/-- The line that names the program, or one of its subcommands, with
the version. -/
def versionLine (subcommand : Option String) : String :=
  programName ++ ((subcommand.map ("-" ++ ·)).getD "") ++ " " ++ version ++ "\n"

def Interrupt.outcome : Interrupt → Outcome
  | version subcommand =>
    { exit := 0, output := { stdout := versionLine subcommand } }
  | help => { exit := 0, output := { stdout := usage } }
  | misuse => { exit := 2, output := { stderr := usage } }

/-- Runs the program: 0 if all is well, 1 if errors were found, 2 if the command
could not be carried out. -/
def run (disk : Disk m) (arguments : List String) : m Outcome := do
  match Invocation.ofArguments arguments with
  | .error interrupt => return interrupt.outcome
  | .ok invocation =>
    let (result, output) ←
      ((carryOut disk invocation.quiet invocation.request).run).run {}
    match result with
    | .ok found => return { exit := if found then 1 else 0, output }
    | .error failure =>
      let stderr := output.stderr ++ "Error: " ++ failure.message ++ "\n"
      return { exit := 2, output := { output with stderr } }

end

end QueryAssist.Command
