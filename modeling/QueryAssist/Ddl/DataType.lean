import QueryAssist.Data.Reader
import QueryAssist.Ddl.Lexeme

/-!
# Data types

Types are kept as text. A known type is written in upper case, its arguments
without blanks; any other name is kept as it is written.
-/

namespace QueryAssist.Ddl

open Reader

/-! ## Small readers of lexemes -/

def keyword (name : String) : Reader Lexeme Unit :=
  discard (satisfying (·.isKeyword name))

/-- Takes all of these keywords. -/
def keywords (names : List String) : Reader Lexeme Unit := names.forM keyword

/-- Takes these keywords if they are there, and tells whether they were. -/
def hasKeywords (names : List String) : Reader Lexeme Bool :=
  (do keywords names; return true) <|> return false

def symbol (text : String) : Reader Lexeme Unit := mark (.symbol text)

def comma : Reader Lexeme Unit := symbol ","

/-- Takes what stands between parentheses. -/
def parenthesized (reader : Reader Lexeme α) : Reader Lexeme α := do
  symbol "("
  let a ← reader
  symbol ")"
  return a

/-- Any name, keywords included; a literal in quotes counts as one. -/
def identifier : Reader Lexeme Lexeme :=
  satisfying fun
    | .word .. | .string _ | .doubleQuoted _ => true
    | _ => false

/-- The text of a name without its quotes. -/
def nameText : Lexeme → String
  | .word text _ | .string text | .doubleQuoted text | .number text
  | .symbol text => text
  | .literal => ""

def name : Reader Lexeme String := return nameText (← identifier)

/-- A dotted path of names, in parts. -/
def pathParts : Reader Lexeme (List Lexeme) :=
  separated1 (symbol ".") identifier

/-- A dotted path of names, without quotes. -/
def path : Reader Lexeme String :=
  return String.intercalate "." ((← pathParts).map nameText)

/-- A list of names in parentheses. -/
def nameList : Reader Lexeme (List String) :=
  parenthesized (separated1 comma name)

/-- Words that are never read as a literal without quotes. -/
def keywordsOfClauses : List String :=
  ["ADD", "ALL", "ALTER", "AND", "ANY", "AS", "ASC", "AUTO_INCREMENT", "BEGIN",
    "BETWEEN", "BY", "CASCADE", "CASE", "CAST", "CHECK", "COLLATE", "COLUMN",
    "COMMENT", "COMMIT", "CONSTRAINT", "CREATE", "CROSS", "DATABASE", "DEFAULT",
    "DELETE", "DESC", "DISTINCT", "DROP", "ELSE", "END", "ENGINE", "EXCEPT",
    "EXISTS", "FALSE", "FETCH", "FIRST", "FOR", "FOREIGN", "FROM", "FULL",
    "FUNCTION", "GRANT", "GROUP", "HAVING", "IF", "IN", "INDEX", "INNER",
    "INSERT", "INTERSECT", "INTO", "IS", "JOIN", "KEY", "LANGUAGE", "LAST",
    "LEFT", "LIKE", "LIMIT", "MATERIALIZED", "NATURAL", "NOT", "NULL", "OFFSET",
    "ON", "OR", "ORDER", "OUTER", "PARTITION", "PRIMARY", "REFERENCES",
    "RENAME", "REPLACE", "RETURNS", "RIGHT", "ROLE", "ROLLBACK", "ROW", "ROWS",
    "SCHEMA", "SELECT", "SET", "TABLE", "TEMPORARY", "THEN", "TO", "TRIGGER",
    "TRUE", "TYPE", "UNION", "UNIQUE", "UPDATE", "USER", "USING", "VALUES",
    "VIEW", "WHEN", "WHERE", "WITH"]

/-- The text of a literal. A word that is no keyword is read as one too. -/
def literalText : Reader Lexeme String := do
  match ← get with
  | .string text :: rest | .doubleQuoted text :: rest => set rest; return text
  | .word text quote :: rest =>
    if quote.isSome || !keywordsOfClauses.contains (Text.upper text) then
      set rest; return text
    else failure
  | _ => failure

/-- The digits of a whole number. -/
def natural : Reader Lexeme String := do
  match ← get with
  | .number text :: rest =>
    if text.all Char.isDigit then set rest; return text else failure
  | _ => failure

/-! ## Arguments -/

def inParens (text : String) : String := "(" ++ text ++ ")"

/-- A length, as in `(10)`, if there is one. -/
def optionalLength : Reader Lexeme String := do
  return ((← optionally (parenthesized natural)).map inParens).getD ""

/-- A length with its unit, or `MAX`, if there is one. -/
def optionalCharacterLength : Reader Lexeme String := do
  let limit : Reader Lexeme String := do
    if ← hasKeywords ["MAX"] then return "MAX"
    let size ← natural
    if ← hasKeywords ["CHARACTERS"] then return size ++ " CHARACTERS"
    else if ← hasKeywords ["OCTETS"] then return size ++ " OCTETS"
    else return size
  return ((← optionally (parenthesized limit)).map inParens).getD ""

/-- A precision and a scale, as in `(10,2)`, if they are there. -/
def optionalPrecision : Reader Lexeme String := do
  let digits : Reader Lexeme String := do
    let precision ← natural
    match ← optionally (do comma; natural) with
    | some scale => return precision ++ "," ++ scale
    | none => return precision
  return ((← optionally (parenthesized digits)).map inParens).getD ""

/-- The characters of a text with each quote doubled. -/
def doubleQuotes (text : String) : String :=
  String.ofList
    (text.toList.flatMap fun c => if c = '\'' then ['\'', '\''] else [c])

/-- The members of an enumeration. -/
def members : Reader Lexeme String := do
  let texts ← parenthesized (separated1 comma literalText)
  return inParens
    (String.intercalate ", " (texts.map fun t => "'" ++ doubleQuotes t ++ "'"))

/-- The word on time zones after a date or time. -/
def zone : Reader Lexeme String := do
  if ← hasKeywords ["WITH", "TIME", "ZONE"] then return " WITH TIME ZONE"
  else if ← hasKeywords ["WITHOUT", "TIME", "ZONE"] then
    return " WITHOUT TIME ZONE"
  else return ""

/-! ## Types -/

/-- Types without arguments. -/
def plainTypes : List String :=
  ["BOOLEAN", "BOOL", "REAL", "FLOAT4", "FLOAT8", "UUID", "DATE", "INTERVAL",
    "JSON", "JSONB", "REGCLASS", "TEXT", "TINYTEXT", "MEDIUMTEXT", "LONGTEXT",
    "TINYBLOB", "MEDIUMBLOB", "LONGBLOB", "BYTEA", "TRIGGER"]

/-- Types with an optional length. -/
def sizedTypes : List String :=
  ["FLOAT", "CLOB", "BINARY", "VARBINARY", "BLOB", "BYTES", "DATETIME",
    "STRING", "TIMESTAMPTZ", "TIMETZ"]

/-- Integer types, with an optional width and sign. -/
def integerTypes : List String :=
  ["TINYINT", "INT2", "SMALLINT", "MEDIUMINT", "INT", "INT4", "INT8", "INTEGER",
    "BIGINT"]

def exactTypes : List String :=
  ["NUMERIC", "DECIMAL", "DEC", "BIGNUMERIC", "BIGDECIMAL"]

/-- A name with the quotes it was written in. -/
def writtenName : Lexeme → String
  | .word text (some quote) =>
    let inner := text.toList.flatMap fun c => if c = quote then [c, c] else [c]
    String.ofList (quote :: inner ++ [quote])
  | .string text => "'" ++ doubleQuotes text ++ "'"
  | .doubleQuoted text => "\"" ++ text ++ "\""
  | other => nameText other

/-- A type that is not known: its path, and its arguments if it has any. -/
def customType : Reader Lexeme String := do
  let parts ← pathParts
  let argument : Reader Lexeme (List String) := do
    match ← get with
    | .word text quote :: rest =>
      set rest; return [writtenName (.word text quote)]
    | .number text :: rest | .string text :: rest => set rest; return [text]
    | .symbol "," :: rest => set rest; return []
    | _ => failure
  let arguments ← optionally (parenthesized (many argument))
  let typeName := String.intercalate "." (parts.map writtenName)
  match (arguments.getD []).flatten with
  | [] => return typeName
  | arguments => return typeName ++ inParens (String.intercalate ", " arguments)

/-- A type of characters, long or varying. -/
def characterType (base : String) : Reader Lexeme String := do
  if ← hasKeywords ["VARYING"] then
    return base ++ " VARYING" ++ (← optionalCharacterLength)
  else if ← hasKeywords ["LARGE", "OBJECT"] then
    return base ++ " LARGE OBJECT" ++ (← optionalLength)
  else return base ++ (← optionalCharacterLength)

/-- The rest of a type that starts with the keyword `base`. -/
def knownType (base : String) : Reader Lexeme String := do
  if plainTypes.contains base then return base
  else if sizedTypes.contains base then return base ++ (← optionalLength)
  else if integerTypes.contains base then
    let width ← optionalLength
    return base ++ width
      ++ (if ← hasKeywords ["UNSIGNED"] then " UNSIGNED" else "")
  else if exactTypes.contains base then return base ++ (← optionalPrecision)
  else
    match base with
    | "DOUBLE" =>
      return if ← hasKeywords ["PRECISION"] then "DOUBLE PRECISION"
        else "DOUBLE"
    | "VARCHAR" | "NVARCHAR" => return base ++ (← optionalCharacterLength)
    | "CHARACTER" | "CHAR" => characterType base
    | "BIT" =>
      let varying := if ← hasKeywords ["VARYING"] then " VARYING" else ""
      return base ++ varying ++ (← optionalLength)
    | "TIMESTAMP" | "TIME" => return base ++ (← optionalLength) ++ (← zone)
    | "ENUM" | "SET" => return base ++ (← members)
    | _ => failure

/-- Keywords that start a known type. -/
def typeKeywords : List String :=
  plainTypes ++ sizedTypes ++ integerTypes ++ exactTypes
    ++ ["DOUBLE", "VARCHAR", "NVARCHAR", "CHARACTER", "CHAR", "BIT",
      "TIMESTAMP", "TIME", "ENUM", "SET"]

/-- A type without array brackets. -/
def elementType : Reader Lexeme String := do
  match ← get with
  | .word text quote :: rest =>
    let base := Text.upper text
    if quote.isNone && typeKeywords.contains base then
      set rest
      knownType base
    else customType
  | _ => failure

/-- The brackets of an array type, with a size where the dialect has it. -/
def arrayBrackets (dialect : Dialect) : Reader Lexeme String := do
  symbol "["
  let size ← if dialect == .mysql then pure none else optionally natural
  symbol "]"
  return "[" ++ size.getD "" ++ "]"

def dataType (dialect : Dialect) : Reader Lexeme String := do
  let element ← elementType
  return element ++ String.join (← many (arrayBrackets dialect))

end QueryAssist.Ddl
