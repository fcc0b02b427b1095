import QueryAssist.Scope.Basic

/-!
# Column lookup

Which columns a source has, with wildcards expanded, and what a column name
stands for.
-/

namespace QueryAssist

/-- Columns with the word whether they are all there are. -/
structure ColumnList where
  columns : List ColumnRef := []
  complete : Bool := true
  deriving DecidableEq, Repr

namespace ColumnList

/-- Nothing is known. -/
def unknown : ColumnList := { complete := false }

/-- One list after the other. -/
def append (a b : ColumnList) : ColumnList :=
  { columns := a.columns ++ b.columns, complete := a.complete && b.complete }

/-- All lists, one after the other. -/
def concat (lists : List ColumnList) : ColumnList := lists.foldr append {}

end ColumnList

/-- What a column name stands for. -/
inductive Lookup where
  | found (source : Source) (column : ColumnRef)
  /-- No source has the column; these are the columns they have. -/
  | missing (sources : List Source) (available : List String)
  /-- Too little is known to tell. -/
  | indeterminate
  deriving DecidableEq, Repr

/-- Names without those that differ from an earlier one only in the case of
ASCII letters; `seen` holds earlier ones. -/
def dedupNames (seen : List String) : List String → List String
  | [] => []
  | name :: names =>
    if seen.any (Text.sameAscii · name) then dedupNames seen names
    else name :: dedupNames (name :: seen) names

namespace Resolver

/-! ## Columns of a source -/

/-- The paths of the tables that a wildcard stands for. -/
def wildcardTargets (body : Bindings) (s : Subquery) : Wildcard → List String
  | .all => s.fromTables
  | .qualified path => [body.target path]

/-- Columns of a table. -/
def tableColumns (table : Table) : ColumnList :=
  { columns := table.columns.map (.table table) }

/-- Columns that a subquery names itself. -/
def declaredColumns (s : Subquery) : ColumnList :=
  { columns := s.columns.map (.subquery s) }

/-- Columns of the wildcards of a subquery. The expansion of a subquery
of a name in `visited` is cut off, and so is one that is nested deeper
than `depth`. -/
def expandWithin (r : Resolver) (depth : Nat) (visited : List String)
    (s : Subquery) : ColumnList :=
  if s.wildcards.isEmpty then {}
  else if visited.contains s.name then .unknown
  else
    match depth with
    | 0 => .unknown
    | depth + 1 =>
      let body := r.bodyBindings s
      .concat <|
        (s.wildcards.flatMap (wildcardTargets body s)).map fun target =>
        match r.source? target body.visible with
        | some (.table table) => tableColumns table
        | some (.subquery inner) =>
          (declaredColumns inner).append
            (r.expandWithin depth (s.name :: visited) inner)
        | none => .unknown

/-- Columns of the wildcards of a subquery. Each expansion leads to an earlier
definition, so their nesting is bounded by the number of definitions. -/
def expand (r : Resolver) (s : Subquery) : ColumnList :=
  r.expandWithin (r.subqueries.length + 1) [] s

/-- Every column of a source. -/
def sourceColumns (r : Resolver) : Source → ColumnList
  | .table table => tableColumns table
  | .subquery s => (declaredColumns s).append (r.expand s)

/-! ## Lookup -/

/-- What a column name stands for in one source. -/
def lookupIn (r : Resolver) (source : Source) (column : String) : Lookup :=
  let declared : Option ColumnRef :=
    match source with
    | .subquery s => (s.column? column).map (.subquery s)
    | .table _ => none
  match declared with
  | some c => .found source c
  | none =>
    let list := r.sourceColumns source
    match list.columns.find? fun c => Text.sameAscii c.name column with
    | some c => .found source c
    | none =>
      if list.complete then
        .missing [source] (dedupNames [] (list.columns.map ColumnRef.name))
      else .indeterminate

/-- What `qualifier.column` stands for. -/
def lookupQualified (r : Resolver) (bindings : Bindings)
    (qualifier column : String) : Lookup :=
  match r.source? (bindings.target qualifier) bindings.visible with
  | some source => r.lookupIn source column
  | none => .indeterminate

/-- What a column stands for in tables read one after the other, when `sources`
with the columns `available` lack it. -/
def lookupAmong (r : Resolver) (visible : List Subquery) (column : String)
    (sources : List Source) (available : List String) : List TableRef → Lookup
  | [] => .missing sources (dedupNames [] available)
  | table :: tables =>
    match r.source? table.name visible with
    | none => .indeterminate
    | some source =>
      match r.lookupIn source column with
      | .found source column => .found source column
      | .missing _ names =>
        r.lookupAmong visible column (sources ++ [source])
          (available ++ names) tables
      | .indeterminate => .indeterminate

/-- What a column without a qualifier stands for among the tables
of the scope. -/
def lookupUnqualified (r : Resolver) (bindings : Bindings)
    (column : String) : Lookup :=
  if bindings.tables.isEmpty then .indeterminate
  else r.lookupAmong bindings.visible column [] [] bindings.tables

/-! ## Tracing -/

/-- The column that a subquery's column refers to, if it is a plain reference
that can be followed. -/
def traceStep (r : Resolver) (s : Subquery)
    (column : OutputColumn) : Option ColumnRef := do
  let sourceColumn ← column.sourceColumn
  let body := r.bodyBindings s
  let target ←
    match column.sourceTable, body.tables with
    | some qualifier, _ => some (body.target qualifier)
    | none, [table] => some table.name
    | none, _ => none
  let source ← r.source? target body.visible
  match r.lookupIn source sourceColumn with
  | .found _ c => some c
  | _ => none

/-- The column of a table that a column refers to through at most `steps` plain
references. -/
def traceWithin (r : Resolver) : Nat → ColumnRef → Option (Table × Column)
  | _, .table table column => some (table, column)
  | 0, .subquery _ _ => none
  | steps + 1, .subquery s column =>
    (r.traceStep s column).bind (r.traceWithin steps)

/-- The column of a table that a column refers to through plain references. -/
def trace (r : Resolver) (column : ColumnRef) : Option (Table × Column) :=
  r.traceWithin r.subqueries.length column

end Resolver

end QueryAssist
