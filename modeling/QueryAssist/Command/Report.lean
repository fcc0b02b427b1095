import QueryAssist.Command.Arguments
import QueryAssist.Data.Json.Printer
import QueryAssist.Data.Sorted
import QueryAssist.Report.Encoding

/-!
# Reports

Findings, completions, hovers and catalogs as the commands print them.
-/

namespace QueryAssist.Command

/-- Version of the program. -/
def version : String := "0.1.0"

/-- Name of the program. -/
def programName : String := "sqlsight"

/-- Data as text with one item a line. -/
def prettyLine (data : Data) : String := Data.Json.pretty 0 data ++ "\n"

/-! ## Text layout -/

/-- Fills up with blanks to `width` characters. -/
def padRight (width : Nat) (s : String) : String :=
  s ++ String.ofList (List.replicate (width - s.length) ' ')

def padLeft (width : Nat) (s : String) : String :=
  String.ofList (List.replicate (width - s.length) ' ') ++ s

/-- The lines of a text. A carriage return before the end of a line belongs to
it, and there is no line after the last end. -/
def linesOf : Text → List Text
  | [] => []
  | '\n' :: cs => [] :: linesOf cs
  | '\r' :: '\n' :: cs => [] :: linesOf cs
  | c :: cs =>
    match linesOf cs with
    | [] => [[c]]
    | first :: rest => (c :: first) :: rest

/-! ## Findings -/

/-- The severity in its colour. -/
def Severity.coloured : Severity → String
  | .error => "\x1b[31merror\x1b[0m"
  | .warning => "\x1b[33mwarning\x1b[0m"

/-- The source line with a mark under the span, which ends with the line and
marks at least one place. -/
def excerpt (span : Span) (line : Text) : String :=
  let marks :=
    max 1 (min (span.endColumn - span.column) (line.length + 1 - span.column))
  "   |\n" ++ padLeft 3 (toString span.line) ++ " | " ++ String.ofList line
    ++ "\n"
    ++ "   | " ++ String.ofList (List.replicate (span.column - 1) ' ')
      ++ String.ofList (List.replicate marks '^') ++ "\n"

def humanFinding (file : String) (source : Text) (finding : Finding) : String :=
  let span := finding.span
  Severity.coloured finding.severity ++ "[" ++ finding.code ++ "]: "
    ++ finding.message ++ "\n"
    ++ "  --> " ++ file ++ ":" ++ toString span.line ++ ":"
      ++ toString span.column ++ "\n"
    ++ (((linesOf source)[span.line - 1]?).map (excerpt span)).getD ""
    ++ (finding.help.map ("   = help: " ++ · ++ "\n")).getD ""
    ++ "\n"

def jsonFindings (file : String) (findings : List Finding) : Data :=
  .sorted (.record
    [("file", .string file),
      ("diagnostics", .list (findings.map Finding.toData))])

def sarifResult (file : String) (finding : Finding) : Data :=
  .record [("ruleId", .string finding.code),
    ("level", .string finding.severity.name),
    ("message", .record [("text", .string finding.message)]),
    ("locations",
      .list [.record [("physicalLocation",
        .record [("artifactLocation", .record [("uri", .string file)]),
          ("region",
            .record [("startLine", .ofNat finding.span.line),
              ("startColumn", .ofNat finding.span.column),
              ("endLine", .ofNat finding.span.endLine),
              ("endColumn", .ofNat finding.span.endColumn)])])]])]

def sarifFindings (file : String) (findings : List Finding) : Data :=
  .sorted (.record
    [("$schema",
        .string
          ("https://raw.githubusercontent.com/oasis-tcs/sarif-spec/master/"
            ++ "Schemata/sarif-schema-2.1.0.json")),
      ("version", .string "2.1.0"),
      ("runs",
        .list [.record [("tool",
            .record [("driver",
              .record [("name", .string programName),
                ("version", .string version)])]),
          ("results", .list (findings.map (sarifResult file)))]])])

/-- The totals after all files are checked. -/
def checkSummary (errors warnings files : Nat) : String :=
  if errors > 0 ∨ warnings > 0 then
    "\nFound " ++ toString errors ++ " error(s), " ++ toString warnings
      ++ " warning(s) in " ++ toString files
      ++ " file(s)\n"
  else "All " ++ toString files ++ " file(s) passed validation\n"

/-! ## Completion, hover and catalogs -/

/-- One candidate a line, in columns. -/
def completionTable (items : List CompletionItem) : String :=
  let width := items.foldl (fun n i => max n i.candidate.label.length) 0
  String.join (items.map fun i =>
    padRight width i.candidate.label ++ "  "
      ++ padRight 14 i.candidate.kind.name ++ "  " ++ i.candidate.detail
      ++ "\n")

/-- A word with its first letter in upper case. -/
def capitalize (word : String) : String :=
  match word.toList with
  | [] => ""
  | c :: cs => String.ofList (Text.upperChar c ++ cs)

def tableListing (table : Table) : String :=
  "  " ++ capitalize table.kindLabel ++ ": " ++ table.name ++ "\n"
    ++ String.join (table.columns.map fun c =>
      "    - " ++ c.name ++ " " ++ c.summary ++ "\n")

def schemaListing (schema : Schema) : String :=
  "\nSchema: " ++ (if schema.name.isEmpty then "(unnamed)" else schema.name)
    ++ "\n" ++ String.join (schema.tables.values.map tableListing)

def catalogListing (catalog : Catalog) : String :=
  "Schema Information:\n==================\n"
    ++ String.join (catalog.schemas.values.map schemaListing)

end QueryAssist.Command
