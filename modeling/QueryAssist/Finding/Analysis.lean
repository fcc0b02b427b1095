import QueryAssist.Finding.Reference
import QueryAssist.Finding.Structure

/-!
# Analysis of a text

All checks in a fixed order. Without a catalog only the checks run
that need none.
-/

namespace QueryAssist

namespace Document

/-- Findings that need no catalog, check by check. -/
def structureFindings (document : Document) : List Finding :=
  Finding.unclosedStrings document.text
    ++ Finding.unbalancedParens document.text document.clean
    ++ Finding.unexpectedCommas document.text document.tokens
    ++ Finding.duplicateCommas document.text document.tokens
    ++ Finding.emptySelects document.text document.tokens
    ++ Finding.missingCommas document.text document.tokens
    ++ Finding.incompleteReferences document.text document.tokens

/-- Findings against a catalog: tables, then columns. -/
def referenceFindings (document : Document) (catalog : Catalog)
    (dialect : Dialect) : List Finding :=
  let check := ReferenceCheck.ofDocument document catalog dialect
  check.unknownTables ++ check.unknownColumns

end Document

/-- The findings of a text. -/
def analyze (text : Text) (catalog : Option Catalog := none)
    (dialect : Dialect := .postgresql) : List Finding :=
  let document := Document.ofText text
  document.structureFindings
    ++ (catalog.map (document.referenceFindings · dialect)).getD []

end QueryAssist
