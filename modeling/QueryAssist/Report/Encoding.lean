import QueryAssist.Catalog.Description
import QueryAssist.Completion.Basic
import QueryAssist.Finding.Basic
import QueryAssist.Hover

/-!
# Results as data

The form in which findings, completions, hovers, subqueries and catalogs are
handed to other programs.
-/

namespace QueryAssist

def Span.toData (span : Span) : Data :=
  .record
    [("offset", .ofNat span.offset), ("length", .ofNat span.length),
     ("line", .ofNat span.line), ("column", .ofNat span.column),
     ("endLine", .ofNat span.endLine), ("endColumn", .ofNat span.endColumn)]

def Finding.toData (finding : Finding) : Data :=
  .record [("kind", .string finding.problem.name),
    ("severity", .string finding.severity.name),
    ("message", .string finding.message), ("span", finding.span.toData),
    ("help", .ofOption .string finding.help)]

/-! ## Subqueries -/

def OutputColumn.toData (column : OutputColumn) : Data :=
  .record ([("name", .string column.name)]
    ++ Data.field? "expression" .string column.expression
    ++ Data.field? "sourceTable" .string column.sourceTable
    ++ Data.field? "sourceColumn" .string column.sourceColumn)

def Wildcard.toData : Wildcard → Data
  | all => .record [("kind", .string "all")]
  | qualified path =>
    .record [("kind", .string "qualified"), ("qualifier", .string path)]

def Subquery.toData (s : Subquery) : Data :=
  .record [("name", .string s.name),
    ("columns", .list (s.columns.map OutputColumn.toData)),
    ("wildcards", .list (s.wildcards.map Wildcard.toData)),
    ("startOffset", .ofNat s.start), ("endOffset", .ofNat s.stop),
    ("bodyStartOffset", .ofNat s.bodyStart),
    ("bodyEndOffset", .ofNat s.bodyStop),
    ("fromTables", .list (s.fromTables.map .string))]

/-! ## Completion and hover -/

def CompletionItem.toData (item : CompletionItem) : Data :=
  .record
    ([("label", .string item.candidate.label),
      ("insertText", .string item.candidate.insertText),
      ("insertFormat", .string item.candidate.format.name),
      ("kind", .string item.candidate.kind.name),
      ("detail", .string item.candidate.detail)]
      ++ Data.field? "documentation" .string item.candidate.documentation
      ++ [("sortText", .string item.sortText)])

def HoverContent.toData : HoverContent → Data
  | column card =>
    .record [("kind", .string "column"), ("name", .string card.name),
      ("source", .string card.source),
      ("dataType", .ofOption .string card.dataType),
      ("nullable", .ofOption .bool card.nullable),
      ("primaryKey", .bool card.primaryKey),
      ("description", .ofOption .string card.description),
      ("expression", .ofOption .string card.expression)]
  | subquery name columns =>
    .record [("kind", .string "subquery"), ("name", .string name),
      ("columns", .list (columns.map .string))]
  | table t =>
    .record [("kind", .string "table"), ("name", .string t.name),
      ("schema", .ofOption .string t.schema),
      ("tableType", .string t.kindLabel),
      ("description", .ofOption .string t.description),
      ("columns", .list (t.columns.map Column.toData))]
  | function info =>
    .record [("kind", .string "function"), ("name", .string info.name),
      ("signature", .string info.signature),
      ("description", .string info.description)]

def Hover.toData (hover : Hover) : Data :=
  .record [("content", hover.content.toData), ("span", hover.span.toData)]

/-! ## Catalogs -/

def Schema.toData (schema : Schema) : Data :=
  .record [("name", .string schema.name),
    ("tables",
      .record (schema.tables.map fun (key, table) => (key, table.toData)))]

def Catalog.toData (catalog : Catalog) : Data :=
  .record [("schemas",
      .record (catalog.schemas.map fun (key, schema) => (key, schema.toData))),
    ("defaultSchema", .ofOption .string catalog.defaultSchema),
    ("showSchemaPrefix", .bool catalog.showSchemaPrefix)]

end QueryAssist
