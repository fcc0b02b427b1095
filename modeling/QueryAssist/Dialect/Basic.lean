import QueryAssist.Dialect.Vocabulary
import QueryAssist.Text.Casing

/-!
# Dialects
-/

namespace QueryAssist

inductive Dialect where
  | postgresql
  | mysql
  | db2
  deriving DecidableEq, Repr, Inhabited

/-- A dialect name that is not known. -/
structure UnknownDialect where
  name : String
  deriving DecidableEq, Repr

/-- The wording of the error. -/
def UnknownDialect.message (error : UnknownDialect) : String :=
  "Unknown dialect: '" ++ error.name
    ++ "'. Supported dialects: postgresql, mysql, db2."

namespace Dialect

/-- The name by which the dialect is shown. -/
def name : Dialect → String
  | postgresql => "postgresql"
  | mysql => "mysql"
  | db2 => "db2"

/-- The dialect that a name or one of its short forms stands for,
in any case. -/
def parse (name : String) : Except UnknownDialect Dialect :=
  let key := Text.lower name
  if ["postgresql", "postgres", "pg"].contains key then .ok postgresql
  else if ["mysql", "mysql8", "mariadb"].contains key then .ok mysql
  else if ["db2", "db2i", "db2luw"].contains key then .ok db2
  else .error ⟨name⟩

/-- Schema of tables that name none, if the dialect has one. -/
def defaultSchema : Dialect → Option String
  | postgresql => some "public"
  | mysql | db2 => none

def vocabulary : Dialect → Vocabulary
  | postgresql => .postgresql
  | mysql => .mysql
  | db2 => .db2

/-- The function of this name. -/
def function? (dialect : Dialect) (name : String) : Option FunctionInfo :=
  dialect.vocabulary.functions.find? fun f => Text.sameAscii f.name name

end Dialect

end QueryAssist
