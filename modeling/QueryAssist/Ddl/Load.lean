import QueryAssist.Ddl.Effect
import QueryAssist.Ddl.Script
import QueryAssist.Dialect.Basic

/-!
# Loading scripts

A script that cannot be read as a whole is read piece by piece, and what cannot
be read is passed over. The catalog changes with every statement on the way, so
it is known only at the end whether anything could be loaded. Loading works with
any reader of statements.
-/

namespace QueryAssist.Ddl

/-- Reads the statements of a text, if all of it can be read. -/
abbrev StatementReader := Text → Option (List Statement)

/-- A catalog that statements are applied to, and how many of them have been. -/
structure Loading where
  catalog : Catalog
  applied : Nat := 0
  deriving DecidableEq, Repr

namespace Loading

/-- Applies statements in order. -/
def applyAll (loading : Loading) (statements : List Statement) : Loading :=
  { catalog := statements.foldl Statement.apply loading.catalog
    applied := loading.applied + statements.length }

/-- Applies the statements of a piece of a script. A piece that cannot be read
on its own is passed over. -/
def applyPiece (read : StatementReader) (loading : Loading)
    (piece : Text) : Loading :=
  match read (Text.trim piece) with
  | some statements => loading.applyAll statements
  | none => loading

end Loading

/-- The catalog that scripts of a dialect start from. -/
def emptyCatalog (dialect : Dialect) : Catalog :=
  { defaultSchema := dialect.defaultSchema }

/-- What is left after a script. -/
structure Loaded where
  /-- The catalog, also after a failure. -/
  catalog : Catalog
  /-- The number of statements; none if loading failed. -/
  count : Option Nat
  deriving DecidableEq, Repr

/-- Loads a script into a catalog. This fails if the script is not blank and
nothing of it can be read. -/
def loadInto (read : StatementReader) (catalog : Catalog)
    (script : Text) : Loaded :=
  match read script with
  | some statements =>
    let loading := Loading.applyAll { catalog } statements
    { catalog := loading.catalog, count := some loading.applied }
  | none =>
    let loading :=
      (splitStatements script).foldl (Loading.applyPiece read) { catalog }
    { catalog := loading.catalog
      count :=
        if loading.applied == 0 && !Text.allBlank script then none
        else some loading.applied }

/-- The catalog after the statements of a script, and their number, unless
loading failed. -/
def load (read : StatementReader) (catalog : Catalog)
    (script : Text) : Option (Nat × Catalog) :=
  let loaded := loadInto read catalog script
  loaded.count.map fun count => (count, loaded.catalog)

end QueryAssist.Ddl
