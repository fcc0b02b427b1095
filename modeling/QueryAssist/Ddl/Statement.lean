/-!
# Statements that define tables

What is kept of a statement: names without their quotes, types as text, and the
parts that change a catalog.
-/

namespace QueryAssist.Ddl

/-! ## Tables -/

/-- An option of a column. -/
inductive ColumnOption where
  | null
  | notNull
  | primaryKey
  | comment (text : String)
  /-- One that changes nothing that is shown. -/
  | other
  deriving DecidableEq, Repr

structure ColumnDefinition where
  name : String
  /-- The type in its standard spelling. -/
  dataType : String
  options : List ColumnOption := []
  deriving DecidableEq, Repr

/-- A constraint of a table. -/
inductive TableConstraint where
  | primaryKey (columns : List String)
  | other
  deriving DecidableEq, Repr

/-! ## Queries -/

/-- What a select item is, as far as it names output columns. -/
inductive SelectItem where
  /-- A bare or qualified column, by its own name. -/
  | column (name : String)
  /-- An expression that is given a name. -/
  | named (name : String)
  | wildcard
  /-- All columns of what the dotted path names. -/
  | qualifiedWildcard (path : String)
  /-- An expression without a name. -/
  | unnamed
  deriving DecidableEq, Repr

/-- What a query reads from. -/
inductive FromItem where
  | table (path : String) (aliasName : Option String)
  /-- A subquery or a group of joins. -/
  | derived
  deriving DecidableEq, Repr

structure Selection where
  items : List SelectItem
  /-- Tables in order, joined ones right after the one they are joined to. -/
  sources : List FromItem := []
  deriving DecidableEq, Repr

inductive Query where
  | select (selection : Selection)
  | setOperation (left right : Query)
  /-- A parenthesised query or a list of values. -/
  | other
  deriving DecidableEq, Repr

/-! ## Statements -/

/-- One change of `ALTER TABLE`. -/
inductive Alteration where
  | addColumn (column : ColumnDefinition)
  | dropColumn (name : String)
  | renameColumn (old new : String)
  | addConstraint (constraint : TableConstraint)
  | other
  deriving DecidableEq, Repr

/-- What a comment is about. -/
inductive CommentTarget where
  | table
  | column
  | other
  deriving DecidableEq, Repr

/-- A statement; tables are named by dotted paths. -/
inductive Statement where
  | createTable (path : String) (columns : List ColumnDefinition)
      (constraints : List TableConstraint)
  | createView (path : String) (columns : List String) (materialized : Bool)
      (query : Query)
  | alterTable (path : String) (alterations : List Alteration)
  | comment (target : CommentTarget) (path : String) (text : Option String)
  | other
  deriving DecidableEq, Repr

end QueryAssist.Ddl
