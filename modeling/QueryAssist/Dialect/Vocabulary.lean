/-!
# Words of the dialects

What each dialect offers for completion: keywords, functions, types, system
names and statement templates.
-/

namespace QueryAssist

/-- A function with its call form. -/
structure FunctionInfo where
  name : String
  signature : String
  description : String
  deriving DecidableEq, Repr

/-- A statement template; a dollar sign and a number in braces mark a place
to fill in. -/
structure Snippet where
  label : String
  template : String
  description : String
  deriving DecidableEq, Repr

/-- What a dialect offers. -/
structure Vocabulary where
  keywords : List String
  /-- Reserved words with the release that introduced each. -/
  reservedWords : List (String × String)
  systemServices : List String
  systemCatalogs : List String
  systemObjects : List String
  functions : List FunctionInfo
  dataTypes : List String
  snippets : List Snippet
  deriving DecidableEq, Repr

namespace Vocabulary

/-! ## Shared by all dialects -/

def commonKeywords : List String :=
  ["SELECT", "FROM", "WHERE", "AND", "OR", "NOT", "IN", "EXISTS", "BETWEEN",
    "LIKE", "IS", "NULL", "AS", "JOIN", "INNER JOIN", "LEFT JOIN", "RIGHT JOIN",
    "FULL OUTER JOIN", "CROSS JOIN", "ON", "USING", "GROUP BY", "ORDER BY",
    "HAVING", "DISTINCT", "UNION", "UNION ALL", "EXCEPT", "INTERSECT", "CASE",
    "WHEN", "THEN", "ELSE", "END", "WITH", "INSERT INTO", "VALUES", "UPDATE",
    "SET", "DELETE FROM", "ASC", "DESC"]

def commonFunctions : List FunctionInfo :=
  [⟨"COUNT", "COUNT(expression)", "Number of rows or non-null values"⟩,
    ⟨"SUM", "SUM(expression)", "Sum of the values"⟩,
    ⟨"AVG", "AVG(expression)", "Average of the values"⟩,
    ⟨"MIN", "MIN(expression)", "Smallest value"⟩,
    ⟨"MAX", "MAX(expression)", "Largest value"⟩,
    ⟨"COALESCE", "COALESCE(value, fallback, ...)", "First non-null argument"⟩,
    ⟨"NULLIF", "NULLIF(a, b)", "NULL when both arguments are equal"⟩,
    ⟨"UPPER", "UPPER(text)", "Upper-case copy of the text"⟩,
    ⟨"LOWER", "LOWER(text)", "Lower-case copy of the text"⟩,
    ⟨"TRIM", "TRIM(text)", "Text without leading and trailing blanks"⟩,
    ⟨"SUBSTRING", "SUBSTRING(text FROM start FOR length)", "Part of a string"⟩,
    ⟨"CAST", "CAST(expression AS type)", "Convert a value to another type"⟩,
    ⟨"ROW_NUMBER", "ROW_NUMBER() OVER (...)",
      "Sequential row number in the window"⟩]

def commonSnippets : List Snippet :=
  [⟨"sel",
      "SELECT $\x7b1:*\x7d\nFROM $\x7b2:table\x7d\nWHERE $\x7b3:condition\x7d",
      "SELECT statement"⟩,
    ⟨"cte",
      "WITH $\x7b1:name\x7d AS (\n    SELECT $\x7b2:*\x7d\n"
        ++ "    FROM $\x7b3:table\x7d\n)\nSELECT *\nFROM $\x7b1:name\x7d",
      "Common table expression"⟩,
    ⟨"ins",
      "INSERT INTO $\x7b1:table\x7d ($\x7b2:columns\x7d)\n"
        ++ "VALUES ($\x7b3:values\x7d)",
      "INSERT statement"⟩,
    ⟨"upd",
      "UPDATE $\x7b1:table\x7d\nSET $\x7b2:column\x7d = $\x7b3:value\x7d\n"
        ++ "WHERE $\x7b4:condition\x7d",
      "UPDATE statement"⟩,
    ⟨"case",
      "CASE\n    WHEN $\x7b1:condition\x7d THEN $\x7b2:result\x7d\n"
        ++ "    ELSE $\x7b3:other\x7d\nEND",
      "CASE expression"⟩]

/-! ## The dialects -/

def postgresql : Vocabulary where
  keywords := commonKeywords
  reservedWords :=
    [("LATERAL", "9.3"), ("TABLESAMPLE", "9.5"), ("MATERIALIZED", "12"),
      ("MERGE", "15")]
  systemServices :=
    ["pg_stat_activity", "pg_locks", "pg_stat_statements"]
  systemCatalogs :=
    ["pg_catalog", "information_schema"]
  systemObjects :=
    ["pg_class", "pg_namespace", "pg_attribute", "pg_index", "pg_proc"]
  functions :=
    commonFunctions
      ++ [⟨"NOW", "NOW()", "Current date and time"⟩,
        ⟨"DATE_TRUNC", "DATE_TRUNC(field, source)",
          "Timestamp truncated to a precision"⟩,
        ⟨"STRING_AGG", "STRING_AGG(expression, delimiter)",
          "Values joined into a string"⟩,
        ⟨"JSONB_BUILD_OBJECT", "JSONB_BUILD_OBJECT(key, value, ...)",
          "Build a JSONB object"⟩,
        ⟨"GENERATE_SERIES", "GENERATE_SERIES(start, stop, step)",
          "Set of values from start to stop"⟩]
  dataTypes :=
    ["INTEGER", "BIGINT", "SMALLINT", "NUMERIC", "REAL", "DOUBLE PRECISION",
      "TEXT", "VARCHAR", "CHAR", "BOOLEAN", "DATE", "TIMESTAMP", "TIMESTAMPTZ",
      "INTERVAL", "UUID", "JSONB", "BYTEA", "SERIAL"]
  snippets :=
    commonSnippets
      ++ [⟨"upsert",
        "INSERT INTO $\x7b1:table\x7d ($\x7b2:columns\x7d)\n"
          ++ "VALUES ($\x7b3:values\x7d)\nON CONFLICT ($\x7b4:key\x7d) "
          ++ "DO UPDATE SET $\x7b5:column\x7d = EXCLUDED.$\x7b5:column\x7d",
        "INSERT ... ON CONFLICT"⟩]

def mysql : Vocabulary where
  keywords := commonKeywords
  reservedWords :=
    [("GENERATED", "5.7"), ("LATERAL", "8.0.14"), ("RECURSIVE", "8.0"),
      ("WINDOW", "8.0")]
  systemServices :=
    ["performance_schema", "sys"]
  systemCatalogs :=
    ["information_schema", "mysql"]
  systemObjects :=
    ["TABLES", "COLUMNS", "STATISTICS", "ROUTINES"]
  functions :=
    commonFunctions
      ++ [⟨"NOW", "NOW()", "Current date and time"⟩,
        ⟨"IFNULL", "IFNULL(value, fallback)",
          "Fallback when the value is NULL"⟩,
        ⟨"GROUP_CONCAT", "GROUP_CONCAT(expression SEPARATOR sep)",
          "Values joined into a string"⟩,
        ⟨"DATE_FORMAT", "DATE_FORMAT(date, format)", "Format a date as text"⟩,
        ⟨"JSON_EXTRACT", "JSON_EXTRACT(doc, path)", "Value at a JSON path"⟩]
  dataTypes :=
    ["INT", "BIGINT", "TINYINT", "DECIMAL", "DOUBLE", "VARCHAR", "CHAR", "TEXT",
      "DATE", "DATETIME", "TIMESTAMP", "JSON", "BLOB", "ENUM"]
  snippets :=
    commonSnippets
      ++ [⟨"upsert",
        "INSERT INTO $\x7b1:table\x7d ($\x7b2:columns\x7d)\n"
          ++ "VALUES ($\x7b3:values\x7d)\nON DUPLICATE KEY UPDATE "
          ++ "$\x7b4:column\x7d = VALUES($\x7b4:column\x7d)",
        "INSERT ... ON DUPLICATE KEY UPDATE"⟩]

def db2 : Vocabulary where
  keywords := commonKeywords
  reservedWords :=
    [("FETCH FIRST", "7.1"), ("MERGE", "7.1"), ("OFFSET", "7.2"),
      ("LIMIT", "7.3")]
  systemServices :=
    ["QSYS2.ACTIVE_JOB_INFO", "QSYS2.SYSTEM_STATUS_INFO", "QSYS2.JOBLOG_INFO",
      "QSYS2.OBJECT_STATISTICS"]
  systemCatalogs :=
    ["QSYS2", "SYSIBM", "SYSCAT"]
  systemObjects :=
    ["SYSTABLES", "SYSCOLUMNS", "SYSINDEXES", "SYSROUTINES", "SYSDUMMY1"]
  functions :=
    commonFunctions
      ++ [⟨"CURRENT_TIMESTAMP", "CURRENT_TIMESTAMP", "Current date and time"⟩,
        ⟨"VARCHAR_FORMAT", "VARCHAR_FORMAT(expression, format)",
          "Format a value as text"⟩,
        ⟨"DIGITS", "DIGITS(expression)",
          "Character representation of a number"⟩,
        ⟨"LISTAGG", "LISTAGG(expression, delimiter)",
          "Values joined into a string"⟩,
        ⟨"DAYS", "DAYS(expression)", "Day number of a date"⟩]
  dataTypes :=
    ["INTEGER", "BIGINT", "SMALLINT", "DECIMAL", "NUMERIC", "DOUBLE", "CHAR",
      "VARCHAR", "CLOB", "GRAPHIC", "DATE", "TIME", "TIMESTAMP", "BLOB"]
  snippets :=
    commonSnippets
      ++ [⟨"fetch",
        "SELECT $\x7b1:*\x7d\nFROM $\x7b2:table\x7d\n"
          ++ "FETCH FIRST $\x7b3:10\x7d ROWS ONLY",
        "SELECT with FETCH FIRST"⟩]

end Vocabulary

end QueryAssist
