import QueryAssist.Proofs.Query.Recasting
import QueryAssist.Proofs.Scope.Span
import QueryAssist.Scope.Lookup

/-!
# Resolvers with other spellings

Two documents whose tokens and columns differ only in how names are spelled have
the same scopes and spans, and bind names to the same tables and subqueries.
Names are compared without regard to the case of ASCII letters, so every source
has the same columns in the other spelling.
-/

namespace QueryAssist

open Text

/-! ## Bindings of recast tables -/

namespace Recasting

variable (f : Recasting)

/-- The paths that names are bound to, changed. -/
def aliases (entries : Entries String) : Entries String :=
  entries.map (Prod.map id f.name)

theorem get?_aliases (entries : Entries String) (key : String) :
    (f.aliases entries).get? key = (entries.get? key).map f.name := by
  induction entries with
  | nil => rfl
  | cons entry rest ih =>
    rw [aliases] at ih
    obtain ⟨own, path⟩ := entry
    rw [aliases, List.map_cons, Prod.map_apply, Entries.get?_cons,
      Entries.get?_cons, ih, id]
    split <;> rfl

theorem putNew_aliases (entries : Entries String) (key path : String) :
    (f.aliases entries).putNew key (f.name path)
      = f.aliases (entries.putNew key path) := by
  rw [Entries.putNew, Entries.has, f.get?_aliases, Option.isSome_map,
    Entries.putNew, Entries.has]
  split
  · rfl
  · rw [aliases, aliases, List.map_append]
    rfl

theorem bindTable_table (entries : Entries String) (table : TableRef) :
    bindTable (f.aliases entries) (f.table table)
      = f.aliases (bindTable entries table) := by
  have hname : (f.table table).name = f.name table.name := rfl
  have halias : (f.table table).aliasName = table.aliasName.map f.name := rfl
  rw [bindTable, bindTable, f.shortName_table, f.upper_table, f.upper_name,
    hname, halias]
  cases table.aliasName with
  | none => simp only [Option.map_none, f.putNew_aliases]
  | some aliasName =>
    simp only [Option.map_some, f.upper_name, f.putNew_aliases]

theorem aliasesOf_map (tables : List TableRef) :
    aliasesOf (tables.map f.table) = f.aliases (aliasesOf tables) := by
  have hrun : ∀ entries,
      (tables.map f.table).foldl bindTable (f.aliases entries)
        = f.aliases (tables.foldl bindTable entries) := by
    induction tables with
    | nil => exact fun _ => rfl
    | cons table tables ih =>
      intro entries
      rw [List.map_cons, List.foldl_cons, List.foldl_cons, f.bindTable_table,
        ih]
  exact hrun []

end Recasting

/-! ## Respellings -/

/-- A recasting that leaves all tokens in their places, with the change of
output columns that goes with it. -/
structure Respelling extends Recasting where
  column : OutputColumn → OutputColumn
  place_eq : ∀ n, place n = n
  name_column : ∀ c, (column c).name = name c.name

namespace Respelling

variable (f : Respelling)

/-- The subquery with its columns changed. Its name and the tables it reads are
in upper case anyway. -/
def subquery (s : Subquery) : Subquery :=
  { s with columns := s.columns.map f.column }

def scope : Scope → Scope
  | .subquery s => .subquery (f.subquery s)
  | .main => .main
  | .unstructured => .unstructured

def source : Source → Source
  | .subquery s => .subquery (f.subquery s)
  | .table t => .table t

/-- Columns of tables are spelled as in the catalog. -/
def columnRef : ColumnRef → ColumnRef
  | .subquery s column => .subquery (f.subquery s) (f.column column)
  | .table t column => .table t column

def bindings (bindings : Bindings) : Bindings :=
  { scope := f.scope bindings.scope
    span := bindings.span
    tables := bindings.tables.map f.table
    aliases := f.aliases bindings.aliases
    visible := bindings.visible.map f.subquery }

def columnList (list : ColumnList) : ColumnList :=
  { list with columns := list.columns.map f.columnRef }

theorem start_token_eq (t : Token) : (f.token t).start = t.start :=
  (f.start_token t).trans (f.place_eq t.start)

theorem stop_token_eq (t : Token) : (f.token t).stop = t.stop :=
  (f.stop_token t).trans (f.place_eq t.stop)

theorem start_table (table : TableRef) : (f.table table).start = table.start :=
  f.place_eq table.start

theorem stop_table (table : TableRef) : (f.table table).stop = table.stop :=
  f.place_eq table.stop

theorem fold_columnRef (c : ColumnRef) :
    foldAscii (f.columnRef c).name = foldAscii c.name := by
  cases c with
  | subquery s column =>
    have hname : (f.columnRef (.subquery s column)).name = f.name column.name :=
      f.name_column column
    rw [hname, f.fold_name]
    rfl
  | table t column => rfl

theorem fold_target {name name' : String} (h : foldAscii name' = foldAscii name)
    (b : Bindings) :
    foldAscii ((f.bindings b).target name') = foldAscii (b.target name) := by
  have hupper : Text.upper name' = Text.upper name := by
    rw [← upper_foldAscii, h, upper_foldAscii]
  rw [Bindings.target, Bindings.target, Bindings.resolve, Bindings.resolve,
    hupper, bindings, f.get?_aliases]
  cases b.aliases.get? (Text.upper name) with
  | none => exact h
  | some path => exact f.fold_name path

theorem findSubquery_map {name name' : String}
    (h : foldAscii name' = foldAscii name) (subqueries : List Subquery) :
    findSubquery (subqueries.map f.subquery) name'
      = (findSubquery subqueries name).map f.subquery := by
  have hupper : Text.upper name' = Text.upper name := by
    rw [← upper_foldAscii, h, upper_foldAscii]
  rw [findSubquery, hupper, List.find?_map]
  rfl

theorem append_columnList (a b : ColumnList) :
    f.columnList (a.append b) = (f.columnList a).append (f.columnList b) := by
  simp only [ColumnList.append, columnList, List.map_append]

theorem concat_columnList (lists : List ColumnList) :
    f.columnList (.concat lists) = .concat (lists.map f.columnList) := by
  induction lists with
  | nil => rfl
  | cons list lists ih =>
    have hcons : ColumnList.concat (list :: lists)
        = list.append (.concat lists) := rfl
    rw [hcons, f.append_columnList, ih]
    rfl

theorem tableColumns_columnList (table : Table) :
    f.columnList (Resolver.tableColumns table)
      = Resolver.tableColumns table := by
  simp only [Resolver.tableColumns, columnList, List.map_map]
  rfl

theorem declaredColumns_subquery (s : Subquery) :
    Resolver.declaredColumns (f.subquery s)
      = f.columnList (Resolver.declaredColumns s) := by
  simp only [Resolver.declaredColumns, columnList, subquery, List.map_map]
  rfl

/-- The tables that a wildcard stands for are the same but for the spelling. -/
theorem map_wildcardTargets {columns columns' : String → ColumnList}
    (h : ∀ {target target'}, foldAscii target' = foldAscii target →
      columns' target' = f.columnList (columns target)) (b : Bindings)
    (s : Subquery) (wildcard : Wildcard) :
    (Resolver.wildcardTargets (f.bindings b) (f.subquery s) wildcard).map
        columns'
      = (Resolver.wildcardTargets b s wildcard).map
        (f.columnList ∘ columns) := by
  cases wildcard with
  | all => exact List.map_congr_left fun _ _ => h rfl
  | qualified path =>
    exact congrArg (fun list => [list]) (h (f.fold_target rfl b))

/-! ## Linked resolvers -/

/-- The second resolver reads the first one's document in the other spelling,
against the same catalog. -/
structure Links (r r' : Resolver) : Prop where
  catalog : r'.catalog = r.catalog
  tokens : r'.document.tokens = r.document.tokens.map f.token
  subqueries : r'.subqueries = r.subqueries.map f.subquery
  bounds : ∀ offset,
    r'.document.clean.statementBounds offset
      = r.document.clean.statementBounds offset

namespace Links

variable {f} {r r' : Resolver} (h : f.Links r r')
include h

theorem lastStop : r'.lastStop = r.lastStop := by
  rw [Resolver.lastStop, h.subqueries, List.map_map]
  rfl

theorem scopeAt (offset : Nat) :
    r'.scopeAt offset = f.scope (r.scopeAt offset) := by
  have hfind : r'.subqueries.find? (·.containsBody offset)
      = (r.subqueries.find? (·.containsBody offset)).map f.subquery := by
    rw [h.subqueries, List.find?_map]
    rfl
  rw [Resolver.scopeAt, Resolver.scopeAt, hfind, h.lastStop]
  generalize r.subqueries.find? _ = found
  cases found with
  | none =>
    cases r.lastStop with
    | none => rfl
    | some stop =>
      simp only [Option.map_none]
      split <;> rfl
  | some s => rfl

theorem span (scope : Scope) (offset : Nat) :
    r'.span (f.scope scope) offset = r.span scope offset := by
  cases scope with
  | subquery s => rfl
  | main => simp only [Resolver.span, scope, h.lastStop, h.bounds]
  | unstructured => exact h.bounds offset

theorem spanAt (offset : Nat) : r'.spanAt offset = r.spanAt offset := by
  rw [Resolver.spanAt, h.scopeAt, h.span, Resolver.spanAt]

/-- A choice among subqueries that does not look at their columns. -/
theorem filter_subqueries (p : Subquery → Bool)
    (hp : ∀ s, p (f.subquery s) = p s) :
    r'.subqueries.filter p = (r.subqueries.filter p).map f.subquery := by
  have hcomp : p ∘ f.subquery = p := funext hp
  rw [h.subqueries, List.filter_map, hcomp]

theorem visible (scope : Scope) (offset : Nat) :
    r'.visible (f.scope scope) offset
      = (r.visible scope offset).map f.subquery := by
  cases scope with
  | subquery s => exact h.filter_subqueries _ fun _ => rfl
  | main => exact h.subqueries
  | unstructured => exact h.filter_subqueries _ fun _ => rfl

theorem tokensIn (span : Nat × Nat) :
    r'.tokensIn span = (r.tokensIn span).map f.token := by
  have hbefore : ∀ offset,
      (fun t : Token => decide (t.start < offset)) ∘ f.token
        = fun t => decide (t.start < offset) := by
    intro offset
    funext t
    rw [Function.comp_apply, f.start_token_eq]
  rw [Resolver.tokensIn_eq, h.tokens, List.dropWhile_map, List.takeWhile_map,
    hbefore, hbefore, Resolver.tokensIn_eq]

theorem bind (scope : Scope) (span : Nat × Nat) (visible : List Subquery) :
    r'.bind (f.scope scope) span (visible.map f.subquery)
      = f.bindings (r.bind scope span visible) := by
  simp only [Resolver.bind, bindings, h.tokensIn, f.tableRefs_map,
    f.aliasesOf_map]

theorem bindingsAt (offset : Nat) :
    r'.bindingsAt offset = f.bindings (r.bindingsAt offset) := by
  rw [Resolver.bindingsAt, h.scopeAt, h.span, h.visible, h.bind]
  rfl

theorem bodyBindings (s : Subquery) :
    r'.bodyBindings (f.subquery s) = f.bindings (r.bodyBindings s) := by
  have hbefore : r'.declaredBefore (f.subquery s)
      = (r.declaredBefore s).map f.subquery :=
    h.filter_subqueries _ fun _ => rfl
  rw [Resolver.bodyBindings, hbefore]
  exact h.bind (.subquery s) _ _

/-- A name stands for the same source in either spelling. -/
theorem source? {name name' : String} (hname : foldAscii name' = foldAscii name)
    (visible : List Subquery) :
    r'.source? name' (visible.map f.subquery)
      = (r.source? name visible).map f.source := by
  have htable : ∀ catalog : Catalog,
      catalog.table? name' = catalog.table? name := by
    intro catalog
    rw [← table?_foldAscii, hname, table?_foldAscii]
  rw [Resolver.source?, f.findSubquery_map hname, Resolver.source?, h.catalog]
  cases findSubquery visible name with
  | none =>
    simp only [Option.map_none, htable, Option.map_map]
    rfl
  | some s => rfl

/-! ## Columns -/

theorem expandWithin (depth : Nat) (visited : List String) (s : Subquery) :
    r'.expandWithin depth visited (f.subquery s)
      = f.columnList (r.expandWithin depth visited s) := by
  have hwildcards : (f.subquery s).wildcards = s.wildcards := rfl
  have hname : (f.subquery s).name = s.name := rfl
  induction depth generalizing visited s with
  | zero =>
    rw [Resolver.expandWithin, Resolver.expandWithin, hwildcards, hname]
    split
    · rfl
    · split <;> rfl
  | succ depth ih =>
    rw [Resolver.expandWithin, Resolver.expandWithin, hwildcards, hname]
    split
    · rfl
    · split
      · rfl
      · simp only [h.bodyBindings, f.concat_columnList, List.map_map,
          List.map_flatMap]
        refine congrArg _
          (congrArg (List.flatMap · _) (funext fun wildcard => ?_))
        -- the same source in either spelling, whose own expansion is nested
        -- one less deep
        refine f.map_wildcardTargets (fun {target target'} htarget => ?_)
          (r.bodyBindings s) s wildcard
        have hvisible : (f.bindings (r.bodyBindings s)).visible
            = (r.bodyBindings s).visible.map f.subquery := rfl
        rw [hvisible, h.source? htarget]
        rcases r.source? target (r.bodyBindings s).visible
          with _ | inner | table
        · rfl
        · have hexpand := ih (s.name :: visited) inner rfl rfl
          simp only [Option.map_some, source, f.append_columnList,
            f.declaredColumns_subquery, hexpand]
        · exact (f.tableColumns_columnList table).symm

theorem sourceColumns (source : Source) :
    r'.sourceColumns (f.source source)
      = f.columnList (r.sourceColumns source) := by
  cases source with
  | table table => exact (f.tableColumns_columnList table).symm
  | subquery s =>
    have hexpand : r'.expand (f.subquery s) = f.columnList (r.expand s) := by
      rw [Resolver.expand, h.subqueries, List.length_map, h.expandWithin,
        Resolver.expand]
    rw [source, Resolver.sourceColumns, Resolver.sourceColumns,
      f.append_columnList, f.declaredColumns_subquery, hexpand]

end Links

end Respelling

end QueryAssist
