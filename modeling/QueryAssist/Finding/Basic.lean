import QueryAssist.Text.Position

/-!
# Findings

What an analysis reports: a problem, where it is, and at times how to mend it.
-/

namespace QueryAssist

inductive Severity where
  | error
  | warning
  deriving DecidableEq, Repr

def Severity.name : Severity → String
  | .error => "error"
  | .warning => "warning"

/-- What is wrong. -/
inductive Problem where
  /-- No catalog table and no subquery has this name. -/
  | unknownTable (name : String)
  /-- None of the sources has the column. -/
  | unknownColumn (name : String) (sources available : List String)
  | unclosedString
  | unclosedParen
  /-- A closing parenthesis without an opening one. -/
  | unopenedParen
  /-- A comma with this clause or mark right after it. -/
  | commaBefore (what : String)
  | duplicateComma
  /-- A `SELECT` without a select list. -/
  | emptySelect
  /-- Two identifiers side by side in a select list. -/
  | missingComma (first second : String)
  /-- A name and a dot with nothing after it. -/
  | incompleteReference (name : String)
  deriving DecidableEq, Repr

namespace Problem

/-- Short code, by which findings are turned off. -/
def code : Problem → String
  | unknownTable _ => "E0001"
  | unknownColumn .. => "E0002"
  | unclosedString => "E1001"
  | unclosedParen => "E1002"
  | unopenedParen => "E1003"
  | commaBefore _ => "E1004"
  | duplicateComma => "E1005"
  | emptySelect => "E1006"
  | missingComma .. => "E1007"
  | incompleteReference _ => "E1008"

/-- Name of the kind of problem. -/
def name : Problem → String
  | unknownTable _ => "unknown-table"
  | unknownColumn .. => "unknown-column"
  | unclosedString => "unclosed-string"
  | unclosedParen => "unclosed-parenthesis"
  | unopenedParen => "unexpected-closing-parenthesis"
  | commaBefore _ => "unexpected-comma"
  | duplicateComma => "duplicate-comma"
  | emptySelect => "empty-select"
  | missingComma .. => "missing-comma"
  | incompleteReference _ => "incomplete-reference"

/-- Whether the problem shows only against a catalog. -/
def isSemantic : Problem → Bool
  | unknownTable _ | unknownColumn .. => true
  | _ => false

/-- A catalog may be partial and a select list may rename without `AS`, so those
findings are warnings. -/
def severity : Problem → Severity
  | unknownTable _ | unknownColumn .. | missingComma ..
  | incompleteReference _ => .warning
  | _ => .error

/-- The wording of the problem. -/
def message : Problem → String
  | unknownTable name => "unknown table: " ++ name
  | unknownColumn name sources available =>
    "unknown column " ++ name ++ " in " ++ String.intercalate ", " sources
      ++ " (available: " ++ String.intercalate ", " available ++ ")"
  | unclosedString => "unclosed string literal"
  | unclosedParen => "unclosed parenthesis"
  | unopenedParen => "unexpected closing parenthesis"
  | commaBefore what => "unexpected comma before " ++ what
  | duplicateComma => "duplicate comma"
  | emptySelect => "SELECT requires at least one column"
  | missingComma first second =>
    "missing comma between " ++ first ++ " and " ++ second
  | incompleteReference name =>
    "incomplete qualified reference '" ++ name ++ ".'"

end Problem

/-- How a problem may be mended. -/
inductive Remedy where
  | removeComma
  /-- A similar name. -/
  | useName (name : String)
  deriving DecidableEq, Repr

/-- The wording of the remedy. -/
def Remedy.message : Remedy → String
  | removeComma => "remove the trailing comma"
  | useName name => "did you mean '" ++ name ++ "'?"

structure Finding where
  problem : Problem
  span : Span
  remedy : Option Remedy := none
  deriving DecidableEq, Repr

namespace Finding

/-- A finding at `length` bytes from `offset`. -/
def locate (text : Text) (offset length : Nat) (problem : Problem)
    (remedy : Option Remedy := none) : Finding :=
  { problem, span := .locate text offset length, remedy }

def severity (finding : Finding) : Severity := finding.problem.severity

def code (finding : Finding) : String := finding.problem.code

def message (finding : Finding) : String := finding.problem.message

/-- The wording of the remedy, if there is one. -/
def help (finding : Finding) : Option String :=
  finding.remedy.map Remedy.message

end Finding

end QueryAssist
