import QueryAssist.Ddl.DataType
import QueryAssist.Ddl.Statement

/-!
# Expressions and queries

Of an expression only this is kept: whether it is a plain column, and which. Of
a query, its output columns and its sources are. Parts that stand in other parts
are read by readers of the next level of nesting.
-/

namespace QueryAssist.Ddl

open Reader

/-- An expression as far as it matters. -/
inductive Expr where
  /-- A column, by the last name of its path. -/
  | column (name : String)
  | other
  deriving DecidableEq, Repr

/-- Readers of what stands in parentheses and between keywords. -/
structure Nested where
  dialect : Dialect
  expr : Reader Lexeme Expr
  query : Reader Lexeme Query

/-- Words after an expression that do not name it. -/
def notColumnAlias : List String :=
  ["WITH", "EXPLAIN", "ANALYZE", "SELECT", "WHERE", "GROUP", "SORT", "HAVING",
    "ORDER", "TOP", "LATERAL", "VIEW", "LIMIT", "OFFSET", "FETCH", "UNION",
    "EXCEPT", "INTERSECT", "CLUSTER", "DISTRIBUTE", "RETURNING", "FROM", "INTO",
    "END"]

/-- Words after a table that do not name it. -/
def notTableAlias : List String :=
  ["WITH", "EXPLAIN", "ANALYZE", "SELECT", "WHERE", "GROUP", "SORT", "HAVING",
    "ORDER", "PIVOT", "UNPIVOT", "TOP", "LATERAL", "VIEW", "LIMIT", "OFFSET",
    "FETCH", "UNION", "EXCEPT", "INTERSECT", "MINUS", "ON", "JOIN", "INNER",
    "CROSS", "FULL", "LEFT", "RIGHT", "NATURAL", "USING", "CLUSTER",
    "DISTRIBUTE", "GLOBAL", "ANTI", "SEMI", "RETURNING", "ASOF",
    "MATCH_CONDITION", "OUTER", "SET", "QUALIFY", "WINDOW", "END", "FOR",
    "PARTITION", "PREWHERE", "SETTINGS", "FORMAT", "START", "CONNECT",
    "MATCH_RECOGNIZE", "SAMPLE", "TABLESAMPLE"]

/-- An alias: any name after `AS`, or a name that is not one of the
`reserved` words. -/
def aliasOf (reserved : List String) : Reader Lexeme String := do
  if ← hasKeywords ["AS"] then name
  else
    if (← peek?).any (·.isOneOf reserved) then failure
    name

namespace Nested

def exprs (nested : Nested) : Reader Lexeme Unit :=
  discard (separated1 comma nested.expr)

/-- Expressions with a direction each. -/
def ordering (nested : Nested) : Reader Lexeme Unit := do
  let item : Reader Lexeme Unit := do
    discard nested.expr
    discard (hasKeywords ["ASC"] <||> hasKeywords ["DESC"])
    discard (hasKeywords ["NULLS", "FIRST"] <||> hasKeywords ["NULLS", "LAST"])
  discard (separated1 comma item)

/-! ## Operands -/

/-- What may stand in the parentheses of a call. -/
def arguments (nested : Nested) : Reader Lexeme Unit := do
  let argument : Reader Lexeme Unit :=
    symbol "*"
      <|> (do discard pathParts; symbol "."; symbol "*")
      <|> (do discard identifier; symbol "=>"; discard nested.expr)
      <|> discard nested.expr
  let list : Reader Lexeme Unit := do
    discard (hasKeywords ["DISTINCT"] <||> hasKeywords ["ALL"])
    discard (separated1 comma argument)
    if ← hasKeywords ["ORDER", "BY"] then nested.ordering
  let closing := symbol ")"
  (do discard nested.query; closing) <|> (do list; closing) <|> closing

/-- The window of a window function. -/
def window (nested : Nested) : Reader Lexeme Unit := do
  let bound : Reader Lexeme Unit := do
    (do keywords ["CURRENT", "ROW"]) <|> (do
      (keyword "UNBOUNDED" <|> discard nested.expr)
      keyword "PRECEDING" <|> keyword "FOLLOWING")
  let specification : Reader Lexeme Unit := do
    if ← hasKeywords ["PARTITION", "BY"] then nested.exprs
    if ← hasKeywords ["ORDER", "BY"] then nested.ordering
    if ← (hasKeywords ["ROWS"] <||> hasKeywords ["RANGE"]
      <||> hasKeywords ["GROUPS"]) then
      if ← hasKeywords ["BETWEEN"] then bound; keyword "AND"; bound
      else bound
  parenthesized specification <|> discard identifier

/-- What may follow the arguments of a call. -/
def afterCall (nested : Nested) : Reader Lexeme Unit := do
  if ← hasKeywords ["WITHIN", "GROUP"] then
    parenthesized (do keywords ["ORDER", "BY"]; nested.ordering)
  if ← hasKeywords ["FILTER"] then
    parenthesized (do keyword "WHERE"; discard nested.expr)
  if ← hasKeywords ["OVER"] then nested.window

/-- A column, or a call of a function. -/
def reference (nested : Nested) : Reader Lexeme Expr := do
  let first ← satisfying fun
    | .word .. => true
    | _ => false
  let parts ← many (do symbol "."; identifier)
  if ← (do symbol "("; return true) <|> return false then
    nested.arguments
    nested.afterCall
    return .other
  else return .column (nameText (parts.getLast?.getD first))

/-- The rest of a `CASE`. -/
def caseRest (nested : Nested) : Reader Lexeme Unit := do
  unless (← peek?).any (·.isKeyword "WHEN") do discard nested.expr
  let branch : Reader Lexeme Unit := do
    keyword "WHEN"
    discard nested.expr
    keyword "THEN"
    discard nested.expr
  branch
  discard (many branch)
  if ← hasKeywords ["ELSE"] then discard nested.expr
  keyword "END"

/-- The arguments of the functions whose arguments are divided by keywords. -/
def specialArguments (nested : Nested)
    (function : String) : Reader Lexeme Unit := do
  let expr := discard nested.expr
  match function with
  | "CAST" | "TRY_CAST" | "SAFE_CAST" =>
    expr; keyword "AS"; discard (dataType nested.dialect)
  | "EXTRACT" => discard identifier; (keyword "FROM" <|> comma); expr
  | "CEIL" | "FLOOR" =>
    expr
    if ← hasKeywords ["TO"] then discard identifier
    else discard (optionally (do comma; expr))
  | "SUBSTRING" =>
    expr
    if ← (hasKeywords ["FROM"] <||> (do comma; return true)
      <|> return false) then expr
    if ← (hasKeywords ["FOR"] <||> (do comma; return true)
      <|> return false) then expr
  | "OVERLAY" =>
    expr; keyword "PLACING"; expr; keyword "FROM"; expr
    if ← hasKeywords ["FOR"] then expr
  | "TRIM" =>
    discard (hasKeywords ["BOTH"] <||> hasKeywords ["LEADING"]
      <||> hasKeywords ["TRAILING"])
    expr
    if ← hasKeywords ["FROM"] then expr
    else discard (optionally (do comma; nested.exprs))
  | _ => failure

/-- Words that stand for a value without being followed by parentheses. -/
def valueWords (dialect : Dialect) : List String :=
  ["TRUE", "FALSE", "NULL"]
    ++ (if dialect == .mysql then []
      else ["CURRENT_CATALOG", "CURRENT_USER", "SESSION_USER", "USER"])

/-- Words that stand for a moment, with or without parentheses after them. -/
def momentWords : List String :=
  ["CURRENT_TIMESTAMP", "CURRENT_TIME", "CURRENT_DATE", "LOCALTIME",
    "LOCALTIMESTAMP"]

/-- An operand that starts with a keyword. -/
def keywordOperand (nested : Nested) : Reader Lexeme Expr := do
  match ← get with
  | .word text none :: rest =>
    let word := Text.upper text
    if (valueWords nested.dialect).contains word then set rest; return .other
    else if momentWords.contains word then
      set rest
      if ← (do symbol "("; return true) <|> return false then nested.arguments
      return .other
    else if word == "CASE" then set rest; nested.caseRest; return .other
    else if word == "EXISTS" then
      set rest; discard (parenthesized nested.query); return .other
    else if word == "INTERVAL" then
      set rest
      discard literalText <|> discard natural
        <|> parenthesized (discard nested.expr)
      discard (optionally
        (satisfying (·.isOneOf
          ["YEAR", "MONTH", "WEEK", "DAY", "HOUR", "MINUTE", "SECOND", "YEARS",
            "MONTHS", "DAYS", "HOURS"])))
      return .other
    else if word == "ARRAY" then
      set rest
      symbol "["
      discard (separated comma nested.expr)
      symbol "]"
      return .other
    else
      set rest
      symbol "("
      (do nested.specialArguments word; symbol ")")
        <|> (do guard (word == "POSITION"); discard nested.expr; symbol ")")
      return .other
  | _ => failure

/-- A literal after the name of its type. -/
def typedLiteral (nested : Nested) : Reader Lexeme Expr := do
  guard
    ((← peek?).any fun t => t.isOneOf typeKeywords && !t.isKeyword "INTERVAL")
  discard (dataType nested.dialect)
  discard literalText
  return .other

/-- An operand without a sign. -/
def plainOperand (nested : Nested) : Reader Lexeme Expr := do
  match ← get with
  | .number _ :: rest | .string _ :: rest | .doubleQuoted _ :: rest
  | .literal :: rest | .symbol "?" :: rest => set rest; return .other
  | .symbol ":" :: .word .. :: rest => set rest; return .other
  | .symbol "(" :: rest =>
    set rest
    (do discard nested.query; symbol ")") <|> (do nested.exprs; symbol ")")
    return .other
  | _ => nested.typedLiteral <|> nested.keywordOperand <|> nested.reference

/-- An operand, with the signs and negations in front of it. -/
def operand (nested : Nested) : Reader Lexeme Expr := do
  let signs ← many (symbol "-" <|> symbol "+" <|> symbol "~" <|> keyword "NOT")
  let operand ← nested.plainOperand
  return if signs.isEmpty then operand else .other

/-! ## Operators -/

def arithmeticSymbols : List String :=
  ["+", "-", "*", "/", "%", "||", "->", "->>", "^", "&", "|", "<<", ">>", "#"]

/-- An arithmetic operator with its right side, a cast or a subscript. -/
def arithmeticStep (nested : Nested) : Reader Lexeme Unit := do
  match ← get with
  | .symbol "::" :: rest => set rest; discard (dataType nested.dialect)
  | .symbol "[" :: rest =>
    set rest
    discard (optionally nested.expr)
    if ← (do symbol ":"; return true) <|> return false then
      discard (optionally nested.expr)
    symbol "]"
  | .symbol text :: rest =>
    guard (arithmeticSymbols.contains text)
    set rest
    discard nested.operand
  | _ =>
    (do keyword "COLLATE"; discard pathParts)
      <|> (do keywords ["AT", "TIME", "ZONE"]; discard nested.operand)
      <|> (do keyword "DIV"; discard nested.operand)

/-- Operands joined by arithmetic operators. -/
def arithmetic (nested : Nested) : Reader Lexeme Expr := do
  let first ← nested.operand
  let steps ← many nested.arithmeticStep
  return if steps.isEmpty then first else .other

def comparisonSymbols : List String :=
  ["=", "==", "<>", "!=", "<", ">", "<=", ">=", "~", "~*", "!~", "!~*"]

/-- A comparison or a logical connective with its right side. -/
def logicalStep (nested : Nested) : Reader Lexeme Unit := do
  match ← get with
  | .symbol text :: rest =>
    guard (comparisonSymbols.contains text)
    set rest
    discard nested.arithmetic
  | _ =>
    if ← (hasKeywords ["AND"] <||> hasKeywords ["OR"]
      <||> hasKeywords ["XOR"]) then
      discard nested.arithmetic
    else if ← hasKeywords ["IS"] then
      discard (hasKeywords ["NOT"])
      keyword "NULL" <|> keyword "TRUE" <|> keyword "FALSE"
        <|> keyword "UNKNOWN"
        <|> (do keywords ["DISTINCT", "FROM"]; discard nested.arithmetic)
    else
      discard (hasKeywords ["NOT"])
      if ← hasKeywords ["IN"] then
        symbol "("
        (do discard nested.query; symbol ")") <|> (do nested.exprs; symbol ")")
      else if ← hasKeywords ["BETWEEN"] then
        discard nested.arithmetic
        keyword "AND"
        discard nested.arithmetic
      else
        keyword "LIKE" <|> keyword "ILIKE" <|> keyword "RLIKE"
          <|> keyword "REGEXP" <|> keywords ["SIMILAR", "TO"]
        discard nested.arithmetic
        if ← hasKeywords ["ESCAPE"] then discard literalText

/-- An expression. -/
def expression (nested : Nested) : Reader Lexeme Expr := do
  let first ← nested.arithmetic
  let steps ← many nested.logicalStep
  return if steps.isEmpty then first else .other

/-! ## Queries -/

def selectItem (nested : Nested) : Reader Lexeme SelectItem := do
  let wildcard : Reader Lexeme SelectItem := do symbol "*"; return .wildcard
  let qualified : Reader Lexeme SelectItem := do
    let qualifier ← path
    symbol "."
    symbol "*"
    return .qualifiedWildcard qualifier
  let column : Reader Lexeme SelectItem := do
    if (← peek?).any (·.isKeyword "FROM") then failure
    let expr ← nested.expression
    match ← optionally (aliasOf notColumnAlias), expr with
    | some name, _ => return .named name
    | none, .column name => return .column name
    | none, .other => return .unnamed
  wildcard <|> qualified <|> column

/-- An alias of a table, with names for its columns if there are any. -/
def tableAlias : Reader Lexeme String := do
  let name ← aliasOf notTableAlias
  discard (optionally nameList)
  return name

/-- How a table is joined to those before it. -/
def joinOperator : Reader Lexeme Unit := do
  discard (hasKeywords ["NATURAL"])
  keyword "JOIN" <|> keywords ["INNER", "JOIN"] <|> keywords ["CROSS", "JOIN"]
    <|> (do
    keyword "LEFT" <|> keyword "RIGHT" <|> keyword "FULL" <|> pure ()
    discard (hasKeywords ["OUTER"] <||> hasKeywords ["SEMI"]
      <||> hasKeywords ["ANTI"])
    keyword "JOIN")

/-- What joined rows have in common. -/
def joinCondition (nested : Nested) : Reader Lexeme Unit := do
  if ← hasKeywords ["ON"] then discard nested.expression
  else if ← hasKeywords ["USING"] then discard nameList

/-- A table, a call that yields a table, or a query in parentheses. -/
def source (nested : Nested) : Reader Lexeme FromItem := do
  discard (hasKeywords ["LATERAL"])
  let derived : Reader Lexeme FromItem := do
    discard (parenthesized nested.query)
    discard (optionally tableAlias)
    return .derived
  let table : Reader Lexeme FromItem := do
    let path ← path
    if ← (do symbol "("; return true) <|> return false then nested.arguments
    return .table path (← optionally tableAlias)
  derived <|> table

/-- Sources joined to each other. -/
def joined (nested : Nested) (source : Reader Lexeme FromItem) :
    Reader Lexeme (List FromItem) := do
  let first ← source
  let rest ← many do
    joinOperator
    let item ← source
    nested.joinCondition
    return item
  return first :: rest

/-- A source, or joined sources in parentheses. -/
def sourceOrGroup (nested : Nested) : Reader Lexeme FromItem :=
  nested.source <|> (do
    discard (parenthesized (nested.joined nested.source))
    discard (optionally tableAlias)
    return .derived)

def selection (nested : Nested) : Reader Lexeme Selection := do
  keyword "SELECT"
  if ← hasKeywords ["DISTINCT", "ON"] then parenthesized nested.exprs
  else discard (hasKeywords ["DISTINCT"] <||> hasKeywords ["ALL"])
  let items ← separated1 comma nested.selectItem
  let sources ←
    if ← hasKeywords ["FROM"] then
      separated1 comma (nested.joined nested.sourceOrGroup)
    else pure []
  if ← hasKeywords ["WHERE"] then discard nested.expression
  if ← hasKeywords ["GROUP", "BY"] then
    unless ← hasKeywords ["ALL"] do nested.exprs
  if ← hasKeywords ["HAVING"] then discard nested.expression
  return { items, sources := sources.flatten }

/-- Rows of values. -/
def values (nested : Nested) : Reader Lexeme Unit := do
  keyword "VALUES"
  let row : Reader Lexeme Unit := do
    discard (hasKeywords ["ROW"])
    parenthesized (nested.exprs <|> (do guard (nested.dialect == .mysql)))
  discard (separated1 comma row)

/-- One operand of a set operation. -/
def queryOperand (nested : Nested) : Reader Lexeme Query :=
  (do return .select (← nested.selection))
    <|> (do discard (parenthesized nested.query); return .other)
    <|> (do nested.values; return .other)
    <|> (do keyword "TABLE"; discard pathParts; return .other)

/-- Operands of set operations, read from the left. -/
def queryBody (nested : Nested) : Reader Lexeme Query := do
  let first ← nested.queryOperand
  let rest ← many do
    keyword "UNION" <|> keyword "EXCEPT" <|> keyword "INTERSECT"
    discard (hasKeywords ["ALL"] <||> hasKeywords ["DISTINCT"])
    nested.queryOperand
  return rest.foldl .setOperation first

/-- One definition of a `WITH`. -/
def definition (nested : Nested) : Reader Lexeme Unit := do
  discard name
  discard (optionally nameList)
  keyword "AS"
  discard
    (hasKeywords ["MATERIALIZED"] <||> hasKeywords ["NOT", "MATERIALIZED"])
  discard (parenthesized nested.query)

/-- What may follow the body of a query. -/
def queryTail (nested : Nested) : Reader Lexeme Unit := do
  if ← hasKeywords ["ORDER", "BY"] then nested.ordering
  let limit : Reader Lexeme Unit := do
    keyword "LIMIT"
    unless ← hasKeywords ["ALL"] do
      discard nested.expression
      discard (optionally
        (do guard (nested.dialect == .mysql); comma; nested.expression))
  let offset : Reader Lexeme Unit := do
    keyword "OFFSET"
    discard nested.expression
    discard (hasKeywords ["ROWS"] <||> hasKeywords ["ROW"])
  discard (optionally limit)
  discard (optionally offset)
  discard (optionally limit)
  let fetch : Reader Lexeme Unit := do
    keyword "FETCH"
    keyword "FIRST" <|> keyword "NEXT"
    discard (optionally nested.expression)
    keyword "ROWS" <|> keyword "ROW"
    keyword "ONLY" <|> keywords ["WITH", "TIES"]
  discard (optionally fetch)
  discard (optionally do keyword "FOR"; keyword "UPDATE" <|> keyword "SHARE")

def fullQuery (nested : Nested) : Reader Lexeme Query := do
  if ← hasKeywords ["WITH"] then
    discard (hasKeywords ["RECURSIVE"])
    discard (separated1 comma nested.definition)
  let body ← nested.queryBody
  nested.queryTail
  return body

/-! ## Nesting -/

/-- Readers for parts that hold at most `depth` levels of further parts. -/
def within (dialect : Dialect) : (depth : Nat) → Nested
  | 0 => { dialect, expr := failure, query := failure }
  | depth + 1 =>
    let nested := within dialect depth
    { dialect, expr := nested.expression, query := nested.fullQuery }

end Nested

/-- How many levels of parts may stand in one another. -/
def nestingLimit : Nat := 50

/-- The readers at the outermost level. -/
def readers (dialect : Dialect) : Nested := .within dialect nestingLimit

end QueryAssist.Ddl
