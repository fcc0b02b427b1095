import QueryAssist.Text.Casing

/-!
# Keywords

The words that the analyses treat as part of SQL's grammar: the shared core of
the common dialects, not a full list of reserved words. A word that is missing
here is taken for an identifier.
-/

namespace QueryAssist.Keyword

/-- Words that are never identifiers. -/
def reserved : List String :=
  ["ALL", "ALTER", "AND", "ANY", "AS", "ASC", "BETWEEN", "BIGINT", "BOOLEAN",
    "BY", "CASE", "CAST", "CHAR", "CHARACTER", "CHECK", "COLLATE", "CONSTRAINT",
    "CREATE", "CROSS", "CURRENT", "CURRENT_DATE", "CURRENT_SCHEMA",
    "CURRENT_TIME", "CURRENT_TIMESTAMP", "CURRENT_USER", "DATE", "DAY", "DAYS",
    "DECIMAL", "DEFAULT", "DELETE", "DESC", "DISTINCT", "DOUBLE", "DROP",
    "ELSE", "END", "ESCAPE", "EXCEPT", "EXISTS", "EXTRACT", "FALSE", "FETCH",
    "FIRST", "FLOAT", "FOLLOWING", "FOR", "FROM", "FULL", "GROUP", "HAVING",
    "HOUR", "HOURS", "ILIKE", "IN", "INNER", "INSERT", "INT", "INTEGER",
    "INTERSECT", "INTERVAL", "INTO", "IS", "JOIN", "LAST", "LATERAL", "LEFT",
    "LIKE", "LIMIT", "MATERIALIZED", "MERGE", "MINUTE", "MINUTES", "MONTH",
    "MONTHS", "NATURAL", "NEXT", "NOT", "NULL", "NULLS", "NUMERIC", "OF",
    "OFFSET", "ON", "ONLY", "OR", "ORDER", "OUTER", "OVER", "PARTITION",
    "PRECEDING", "RANGE", "RECURSIVE", "REAL", "RIGHT", "ROW", "ROWS", "SECOND",
    "SECONDS", "SELECT", "SESSION_USER", "SET", "SMALLINT", "SOME", "SYSDATE",
    "TABLE", "THEN", "TIME", "TIMESTAMP", "TO", "TOP", "TRUE", "TRUNCATE",
    "UNBOUNDED", "UNION", "UNIQUE", "UPDATE", "USER", "USING", "VALUES",
    "VARCHAR", "VARYING", "WHEN", "WHERE", "WINDOW", "WITH", "WITHIN", "YEAR",
    "YEARS", "ZONE"]

/-- Words that start a clause; none of them is an alias. -/
def clauses : List String :=
  ["CROSS", "EXCEPT", "FETCH", "FOR", "FROM", "FULL", "GROUP", "HAVING",
    "INNER", "INTERSECT", "JOIN", "LATERAL", "LEFT", "LIMIT", "MINUS",
    "NATURAL", "OFFSET", "ON", "ORDER", "OUTER", "RIGHT", "SELECT", "SET",
    "UNION", "USING", "VALUES", "WHERE", "WINDOW", "WITH"]

/-- Words after which a table name stands. -/
def beforeTable : List String :=
  ["FROM", "JOIN", "INTO", "UPDATE", "TABLE", "TRUNCATE"]

/-- Functions whose arguments may hold a `FROM` that names no table. -/
def withFromArgument : List String :=
  ["EXTRACT", "SUBSTRING", "TRIM", "POSITION", "OVERLAY"]

/-- Words that end a select list. -/
def afterProjection : List String :=
  ["FROM", "WHERE", "GROUP", "ORDER", "HAVING", "UNION", "EXCEPT", "INTERSECT",
    "LIMIT", "FETCH", "WINDOW", "INTO"]

/-- Words that no comma may stand before. -/
def notAfterComma : List String :=
  ["FROM", "WHERE", "HAVING", "UNION", "EXCEPT", "INTERSECT", "FETCH", "LIMIT",
    "FOR"]

/-- Words after which a column is expected. -/
def beforeColumn : List String :=
  ["SELECT", "WHERE", "AND", "OR", "ON", "SET", "HAVING"]

/-- Whether a word is one of the `words`, which are in upper case; the case of
ASCII letters does not matter. -/
def isOneOf (words : List String) (word : String) : Bool :=
  words.contains (Text.foldAscii word)

/-- Whether a word is never an identifier. -/
def isReserved (word : String) : Bool := isOneOf reserved word

/-- Whether a word starts a clause. -/
def isClause (word : String) : Bool := isOneOf clauses word

end QueryAssist.Keyword
