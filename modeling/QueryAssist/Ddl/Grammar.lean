import QueryAssist.Ddl.Load
import QueryAssist.Ddl.Query

/-!
# Reading statements

The statements that define or change tables and views, and those that may stand
beside them in a script.
-/

namespace QueryAssist.Ddl

open Reader

/-- Takes `IF NOT EXISTS` if it is there. -/
def ifNotExists : Reader Lexeme Unit :=
  discard (hasKeywords ["IF", "NOT", "EXISTS"])

/-- Takes `IF EXISTS` if it is there. -/
def ifExists : Reader Lexeme Unit := discard (hasKeywords ["IF", "EXISTS"])

/-! ## Constraints -/

/-- What happens to rows whose referenced row changes. -/
def referentialActions : Reader Lexeme Unit := do
  let action : Reader Lexeme Unit := do
    keyword "ON"
    keyword "DELETE" <|> keyword "UPDATE"
    keyword "CASCADE" <|> keyword "RESTRICT" <|> keywords ["SET", "NULL"]
      <|> keywords ["NO", "ACTION"] <|> keywords ["SET", "DEFAULT"]
  discard (many action)

/-- When a constraint is checked. -/
def constraintTiming : Reader Lexeme Unit := do
  let word : Reader Lexeme Unit :=
    keyword "DEFERRABLE" <|> keywords ["NOT", "DEFERRABLE"]
      <|> keywords ["INITIALLY", "DEFERRED"]
      <|> keywords ["INITIALLY", "IMMEDIATE"] <|> keyword "ENFORCED"
      <|> keywords ["NOT", "ENFORCED"]
  discard (many word)

/-- A condition in parentheses. -/
def condition (nested : Nested) : Reader Lexeme Unit :=
  discard (parenthesized nested.expression)

/-- The table that a foreign key refers to. -/
def reference : Reader Lexeme Unit := do
  discard pathParts
  discard (optionally nameList)
  referentialActions
  constraintTiming

/-- Columns of a key, after the name of its index if there is one. -/
def keyColumns : Reader Lexeme (List String) := do
  let columns ← nameList <|> (do discard identifier; nameList)
  constraintTiming
  return columns

/-- The body of a constraint of a table. -/
def constraintBody (nested : Nested) : Reader Lexeme TableConstraint :=
  (do keywords ["PRIMARY", "KEY"]; return .primaryKey (← keyColumns))
    <|> (do keyword "UNIQUE"; discard keyColumns; return .other)
    <|> (do
      keywords ["FOREIGN", "KEY"]
      discard nameList
      keyword "REFERENCES"
      reference
      return .other)
    <|> (do keyword "CHECK"; condition nested; return .other)

/-- A constraint of a table, with its name if it has one. -/
def tableConstraint (nested : Nested) : Reader Lexeme TableConstraint :=
  (do keyword "CONSTRAINT"; discard identifier; constraintBody nested)
    <|> constraintBody nested
    <|> (do
      guard (nested.dialect != .postgresql)
      keyword "INDEX" <|> keyword "KEY"
      discard keyColumns
      return .other)

/-- Words that always start a constraint where a column or a
constraint may stand. -/
def startsConstraint (dialect : Dialect) (t : Lexeme) : Bool :=
  t.isOneOf ["CONSTRAINT", "PRIMARY", "UNIQUE", "FOREIGN", "CHECK"]
    || (dialect != .postgresql && t.isOneOf ["INDEX", "KEY"])

/-! ## Columns -/

/-- A column that is computed. -/
def generated (nested : Nested) : Reader Lexeme Unit := do
  keyword "GENERATED"
  (keyword "ALWAYS" <|> keywords ["BY", "DEFAULT"])
  keyword "AS"
  keyword "IDENTITY" <|> (do
    condition nested
    discard (hasKeywords ["STORED"] <||> hasKeywords ["VIRTUAL"]))

/-- One option of a column. -/
def columnOption (nested : Nested) : Reader Lexeme ColumnOption :=
  (do keywords ["NOT", "NULL"]; return .notNull)
    <|> (do keyword "NULL"; return .null)
    <|> (do keyword "COMMENT"; return .comment (← literalText))
    <|> (do keyword "DEFAULT"; discard nested.expression; return .other)
    <|> (do keywords ["PRIMARY", "KEY"]; constraintTiming; return .primaryKey)
    <|> (do keyword "UNIQUE"; constraintTiming; return .other)
    <|> (do keyword "REFERENCES"; reference; return .other)
    <|> (do keyword "CHECK"; condition nested; return .other)
    <|> (do keywords ["CHARACTER", "SET"]; discard pathParts; return .other)
    <|> (do generated nested; return .other)
    <|> (do
      guard (nested.dialect != .postgresql)
      keyword "AUTO_INCREMENT"
      return .other)
    <|> (do
      guard (nested.dialect != .postgresql)
      keywords ["ON", "UPDATE"]
      discard nested.expression
      return .other)

/-- An option with its name, or one without. -/
def namedOption (nested : Nested) : Reader Lexeme ColumnOption :=
  (do keyword "CONSTRAINT"; discard identifier; columnOption nested)
    <|> columnOption nested
    <|> (do keyword "COLLATE"; discard pathParts; return .other)

/-- A column with its type and options. -/
def columnDefinition (nested : Nested) : Reader Lexeme ColumnDefinition := do
  let name ← name
  let dataType ← dataType nested.dialect
  let options ← many (namedOption nested)
  if nested.dialect == .postgresql then discard (hasKeywords ["AUTO_INCREMENT"])
  return { name, dataType, options }

/-! ## Tables -/

/-- An item between the parentheses of a table. -/
def tableItem (nested : Nested) :
    Reader Lexeme (ColumnDefinition ⊕ TableConstraint) := do
  match ← peek? with
  | some (.word text quote) =>
    if startsConstraint nested.dialect (.word text quote) then
      return .inr (← tableConstraint nested)
    else return .inl (← columnDefinition nested)
  | _ => failure

/-- What may follow the columns of a table. -/
def tableOptions (nested : Nested) : Reader Lexeme Unit := do
  let equals := discard (optionally (symbol "="))
  if ← hasKeywords ["ENGINE"] then
    symbol "="
    discard identifier
  if ← hasKeywords ["AUTO_INCREMENT"] then
    equals
    discard natural
  if ← hasKeywords ["DEFAULT", "CHARSET"] then
    symbol "="
    discard identifier
  if ← hasKeywords ["COLLATE"] then
    symbol "="
    discard identifier
  if ← hasKeywords ["COMMENT"] then
    equals
    discard literalText
  if ← hasKeywords ["AS"] then discard nested.fullQuery

/-- The rest of `CREATE TABLE`. A table may have no columns, and no
parentheses at all. -/
def createTable (nested : Nested) : Reader Lexeme Statement := do
  keyword "TABLE"
  ifNotExists
  let path ← path
  if ← hasKeywords ["LIKE"] then discard pathParts
  let empty : Reader Lexeme (List (ColumnDefinition ⊕ TableConstraint)) := do
    symbol "("
    symbol ")"
    return []
  let items ←
    if (← peek?) == some (.symbol "(") then
      empty <|> parenthesized (separated1 comma (tableItem nested))
    else pure []
  tableOptions nested
  let columns := items.filterMap Sum.getLeft?
  let constraints := items.filterMap Sum.getRight?
  return .createTable path columns constraints

/-- The rest of `CREATE VIEW`. -/
def createView (nested : Nested) : Reader Lexeme Statement := do
  let materialized ← hasKeywords ["MATERIALIZED"]
  keyword "VIEW"
  if nested.dialect == .db2 then ifNotExists
  let path ← path
  let columns ← nameList <|> (do symbol "("; symbol ")"; return []) <|> pure []
  keyword "AS"
  return .createView path columns materialized (← nested.fullQuery)

/-! ## Other things to create or drop -/

/-- The rest of `CREATE INDEX`. -/
def createIndex (nested : Nested) : Reader Lexeme Statement := do
  discard (hasKeywords ["UNIQUE"])
  keyword "INDEX"
  discard (hasKeywords ["CONCURRENTLY"])
  ifNotExists
  unless (← peek?).any (·.isKeyword "ON") do discard pathParts
  keyword "ON"
  discard pathParts
  if ← hasKeywords ["USING"] then discard identifier
  parenthesized nested.ordering
  if ← hasKeywords ["INCLUDE"] then discard nameList
  if ← hasKeywords ["WHERE"] then discard nested.expression
  return .other

/-- The rest of `CREATE SCHEMA`. -/
def createSchema : Reader Lexeme Statement := do
  keyword "SCHEMA"
  ifNotExists
  unless (← peek?).any (·.isKeyword "AUTHORIZATION") do discard pathParts
  if ← hasKeywords ["AUTHORIZATION"] then discard identifier
  return .other

/-- The rest of `CREATE FUNCTION`. -/
def createFunction (nested : Nested) : Reader Lexeme Statement := do
  guard (nested.dialect != .mysql)
  keyword "FUNCTION"
  discard pathParts
  let argument : Reader Lexeme Unit := do
    discard
      (hasKeywords ["IN"] <||> hasKeywords ["OUT"] <||> hasKeywords ["INOUT"])
    (do discard identifier; discard (dataType nested.dialect))
      <|> discard (dataType nested.dialect)
    if ← (hasKeywords ["DEFAULT"] <||> (do symbol "="; return true)
      <|> return false) then
      discard nested.expression
  parenthesized (discard (separated comma argument))
  if ← hasKeywords ["RETURNS"] then discard (dataType nested.dialect)
  let body : Reader Lexeme Unit :=
    (do
      keyword "AS"
      discard (satisfying fun
        | .string _ | .doubleQuoted _ | .literal => true
        | _ => false))
      <|> (do keyword "LANGUAGE"; discard identifier)
      <|> keyword "IMMUTABLE" <|> keyword "STABLE" <|> keyword "VOLATILE"
        <|> keyword "STRICT"
      <|> (do keyword "RETURN"; discard nested.expression)
  discard (many body)
  return .other

def create (nested : Nested) : Reader Lexeme Statement := do
  keyword "CREATE"
  let replaces ← hasKeywords ["OR", "REPLACE"]
  discard (hasKeywords ["TEMPORARY"] <||> hasKeywords ["TEMP"])
  createTable nested <|> createView nested <|> createFunction nested <|> (do
    guard !replaces
    createIndex nested <|> createSchema)

def drop : Reader Lexeme Statement := do
  keyword "DROP"
  discard (hasKeywords ["TEMPORARY"])
  keyword "TABLE" <|> keyword "VIEW" <|> keyword "INDEX" <|> keyword "SCHEMA"
    <|> keyword "SEQUENCE" <|> keyword "ROLE" <|> keyword "DATABASE"
    <|> keywords ["MATERIALIZED", "VIEW"]
  ifExists
  discard (separated1 comma pathParts)
  discard (hasKeywords ["CASCADE"])
  discard (hasKeywords ["RESTRICT"])
  return .other

/-! ## Changes -/

/-- What may be done to a column in place. -/
def columnChange (nested : Nested) : Reader Lexeme Unit :=
  keywords ["SET", "NOT", "NULL"] <|> keywords ["DROP", "NOT", "NULL"]
    <|> keywords ["DROP", "DEFAULT"]
    <|> (do keywords ["SET", "DEFAULT"]; discard nested.expression)
    <|> (do
      keywords ["SET", "DATA", "TYPE"]
        <|> (do guard (nested.dialect == .postgresql); keyword "TYPE")
      discard (dataType nested.dialect)
      if ← hasKeywords ["USING"] then discard nested.expression)

/-- A column after `ADD`. -/
def addedColumn (nested : Nested) : Reader Lexeme Alteration := do
  ifNotExists
  discard (hasKeywords ["COLUMN"])
  if nested.dialect != .mysql then ifNotExists
  let column ← columnDefinition nested
  if nested.dialect != .postgresql then
    unless ← hasKeywords ["FIRST"] do
      if ← hasKeywords ["AFTER"] then discard identifier
  return .addColumn column

/-- One change after `ALTER TABLE`. -/
def alteration (nested : Nested) : Reader Lexeme Alteration := do
  if ← hasKeywords ["ADD"] then
    if (← peek?).any (startsConstraint nested.dialect) then
      return .addConstraint (← tableConstraint nested)
    else addedColumn nested
  else if ← hasKeywords ["RENAME"] then
    if ← hasKeywords ["TO"] then
      discard pathParts
      return .other
    else if nested.dialect == .postgresql && (← hasKeywords ["CONSTRAINT"]) then
      discard identifier
      keyword "TO"
      discard identifier
      return .other
    else
      discard (hasKeywords ["COLUMN"])
      let old ← name
      keyword "TO"
      return .renameColumn old (← name)
  else if ← hasKeywords ["DROP"] then
    if ← hasKeywords ["CONSTRAINT"] then
      ifExists
      discard identifier
      discard (hasKeywords ["CASCADE"])
      return .other
    else if nested.dialect != .postgresql
      && (← hasKeywords ["PRIMARY", "KEY"]) then return .other
    else
      discard (hasKeywords ["COLUMN"])
      ifExists
      let column ← name
      discard (hasKeywords ["CASCADE"] <||> hasKeywords ["RESTRICT"])
      return .dropColumn column
  else
    keyword "ALTER"
    discard (hasKeywords ["COLUMN"])
    discard identifier
    columnChange nested
    return .other

def alterTable (nested : Nested) : Reader Lexeme Statement := do
  keywords ["ALTER", "TABLE"]
  ifExists
  discard (hasKeywords ["ONLY"])
  let path ← path
  return .alterTable path (← separated1 comma (alteration nested))

/-- A description of a table, a column or something else. -/
def comment (dialect : Dialect) : Reader Lexeme Statement := do
  guard (dialect != .mysql)
  keyword "COMMENT"
  ifExists
  keyword "ON"
  let target ←
    (do keyword "TABLE"; return CommentTarget.table)
      <|> (do keyword "COLUMN"; return .column)
      <|> (do
        keyword "SCHEMA" <|> keyword "EXTENSION" <|> keyword "DATABASE"
          <|> keyword "USER" <|> keyword "ROLE"
        return .other)
  let path ← path
  keyword "IS"
  if ← hasKeywords ["NULL"] then return .comment target path none
  else return .comment target path (some (← literalText))

/-! ## Scripts -/

def insert (nested : Nested) : Reader Lexeme Statement := do
  keyword "INSERT"
  discard (hasKeywords ["INTO"])
  discard (hasKeywords ["TABLE"])
  discard pathParts
  discard (optionally nameList)
  keywords ["DEFAULT", "VALUES"] <|> discard nested.fullQuery
  if ← hasKeywords ["RETURNING"] then
    discard (separated1 comma nested.selectItem)
  return .other

def statement (nested : Nested) : Reader Lexeme Statement :=
  create nested <|> alterTable nested <|> comment nested.dialect <|> drop
    <|> insert nested <|> (do discard nested.fullQuery; return .other)

/-- The statements of a script of at most `limit` statements. After a statement
comes a semicolon, or an `END` that ends the script whatever follows it. -/
def statements (nested : Nested) :
    (limit : Nat) → Reader Lexeme (List Statement)
  | 0 => failure
  | limit + 1 => do
    discard (many (symbol ";"))
    if (← peek?).isNone then return []
    else
      let first ← statement nested
      match ← peek? with
      | none => return [first]
      | some next =>
        if next == .symbol ";" then return first :: (← statements nested limit)
        else if next.isKeyword "END" then
          set ([] : List Lexeme)
          return [first]
        else failure

/-- Reads the statements of a text in a dialect. -/
def statementReader (dialect : Dialect) : StatementReader := fun text => do
  let lexemes ← lexemes dialect text
  (statements (readers dialect) (lexemes.length + 1)).run? lexemes

/-! ## Catalogs from scripts -/

/-- Loads a script of a dialect into a catalog. -/
def loadScriptInto (dialect : Dialect) (catalog : Catalog)
    (script : Text) : Loaded :=
  loadInto (statementReader dialect) catalog script

/-- The catalog after a script, and the number of its statements. -/
def loadScript (dialect : Dialect) (catalog : Catalog)
    (script : Text) : Option (Nat × Catalog) :=
  load (statementReader dialect) catalog script

end QueryAssist.Ddl
