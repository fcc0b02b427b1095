import QueryAssist.Ddl.Effect
import QueryAssist.Proofs.Catalog.Filing
import QueryAssist.Proofs.Text.UpperCase

/-!
# Columns of views

A view that lists no columns has those of its query, item by item. A column and
a named expression give their name, and `*` gives the columns of all tables that
the query reads. `q.*` gives the columns of the table that the catalog has under
the path `q`, which need not be the table that goes by `q` in the query: an
alias is no path of the catalog, and a bare name may lead to a table of another
schema. Where `q` designates the table that goes by it, as the path of a table
that the query reads does, it is that table; where it is no path of the catalog,
its columns are lost.
-/

namespace QueryAssist

open Text

/-- The names of the columns of a table. -/
def Table.columnNames (table : Table) : List String :=
  table.columns.map Column.name

namespace Ddl

/-! ## What a select list shows -/

/-- The selection that names the columns of a query: for a set operation, that
of its leftmost operand. -/
def Query.leftmost? : Query → Option Selection
  | select selection => some selection
  | setOperation left _ => left.leftmost?
  | other => none

/-- The table that is read from. -/
def FromItem.table? (catalog : Catalog) : FromItem → Option Table
  | table path _ => catalog.table? path
  | derived => none

/-- Whether the qualifier is the path of what is read from, in any case. -/
def FromItem.hasPath (qualifier : String) : FromItem → Bool
  | table path _ => upper path == upper qualifier
  | derived => false

/-- Whether the qualifier is the path, the name or the alias of what is read
from, in any case. -/
def FromItem.goesBy (qualifier : String) : FromItem → Bool
  | table path aliasName =>
    upper path == upper qualifier || upper (lastSegment path) == upper qualifier
      || aliasName.any (upper · == upper qualifier)
  | derived => false

/-- The output columns of a select item, where the tables that are read
from are there. -/
inductive Shows (catalog : Catalog) (sources : List FromItem) :
    SelectItem → List String → Prop
  | column (name : String) : Shows catalog sources (.column name) [name]
  | named (name : String) : Shows catalog sources (.named name) [name]
  | wildcard {tables : List Table}
      (hread : sources.map (·.table? catalog) = tables.map some) :
      Shows catalog sources .wildcard (tables.flatMap Table.columnNames)
  | qualified {qualifier : String} {source : FromItem} {table : Table}
      (hmem : source ∈ sources) (hname : source.goesBy qualifier = true)
      (hread : source.table? catalog = some table) :
      Shows catalog sources (.qualifiedWildcard qualifier) table.columnNames

/-- The tables of the catalog whose columns a select item shows. -/
inductive Draws (catalog : Catalog) (sources : List FromItem) :
    SelectItem → List Table → Prop
  | column (name : String) : Draws catalog sources (.column name) []
  | named (name : String) : Draws catalog sources (.named name) []
  | wildcard {tables : List Table}
      (hread : sources.map (·.table? catalog) = tables.map some) :
      Draws catalog sources .wildcard tables
  | qualified {qualifier : String} {source : FromItem} {table : Table}
      (hmem : source ∈ sources) (hname : source.goesBy qualifier = true)
      (hread : source.table? catalog = some table) :
      Draws catalog sources (.qualifiedWildcard qualifier) [table]

/-- The names are the output columns of all items in order. -/
def Selection.ShowsAs (selection : Selection) (catalog : Catalog)
    (names : List String) : Prop :=
  ∃ outputs : SelectItem → List String,
    (∀ item ∈ selection.items,
        Shows catalog selection.sources item (outputs item)) ∧
      names = selection.items.flatMap outputs

/-! ## What is taken for it -/

section

variable {catalog : Catalog} {sources : List FromItem}

theorem columnNames_eq (catalog : Catalog) (path : String) :
    columnNames catalog path
      = ((catalog.table? path).map Table.columnNames).getD [] := rfl

theorem columnNames_of_table?_eq_none {path : String}
    (hpath : catalog.table? path = none) : columnNames catalog path = [] := by
  rw [columnNames_eq, hpath]
  rfl

theorem FromItem.columnNames_eq (source : FromItem) :
    source.columnNames catalog
      = ((source.table? catalog).map Table.columnNames).getD [] := by
  cases source with
  | table path aliasName => rfl
  | derived => rfl

theorem Query.columnNames_eq {query : Query} {selection : Selection}
    (h : query.leftmost? = some selection) (catalog : Catalog) :
    query.columnNames catalog
      = selection.items.flatMap (·.columnNames catalog selection.sources) := by
  induction query with
  | select own =>
    cases h
    rfl
  | setOperation left right ih => exact ih h
  | other => cases h

/-- Tables that are all there are the tables of a list. -/
theorem exists_tables
    (h : ∀ source ∈ sources, (source.table? catalog).isSome = true) :
    ∃ tables : List Table,
      sources.map (·.table? catalog) = tables.map some := by
  induction sources with
  | nil => exact ⟨[], rfl⟩
  | cons source sources ih =>
    obtain ⟨table, htable⟩ := Option.isSome_iff_exists.1 (h source (by simp))
    obtain ⟨tables, htables⟩ := ih fun s hs => h s (by simp [hs])
    exact ⟨table :: tables,
      by rw [List.map_cons, htable, htables, List.map_cons]⟩

/-- The name that an item gives to its output itself. -/
def SelectItem.ownNames : SelectItem → List String
  | column name | named name => [name]
  | wildcard | qualifiedWildcard _ | unnamed => []

/-- The tables whose columns are taken for the output of an item. -/
def SelectItem.tables (catalog : Catalog) (sources : List FromItem) :
    SelectItem → List Table
  | wildcard => sources.filterMap (·.table? catalog)
  | qualifiedWildcard path => (catalog.table? path).toList
  | column _ | named _ | unnamed => []

/-- What is taken for the output of an item is its own name, or all columns of
its tables. -/
theorem SelectItem.columnNames_eq (item : SelectItem) :
    item.columnNames catalog sources
      = item.ownNames
        ++ (item.tables catalog sources).flatMap Table.columnNames := by
  cases item with
  | column name => rfl
  | named name => rfl
  | unnamed => rfl
  | qualifiedWildcard path =>
    rw [SelectItem.columnNames, Ddl.columnNames_eq, tables]
    cases catalog.table? path with
    | none => rfl
    | some table => simp [ownNames]
  | wildcard =>
    simp only [SelectItem.columnNames, ownNames, tables, List.nil_append]
    induction sources with
    | nil => rfl
    | cons source sources ih =>
      rw [List.flatMap_cons, List.filterMap_cons, FromItem.columnNames_eq, ih]
      cases source.table? catalog with
      | none => rfl
      | some table => rfl

/-- As a path of the catalog, the qualifier designates the very table of what
is read from and goes by it. -/
def Designates (catalog : Catalog) (sources : List FromItem)
    (qualifier : String) : Prop :=
  ∃ source ∈ sources, source.goesBy qualifier = true ∧
    ∃ table, source.table? catalog = some table ∧
      catalog.table? qualifier = some table

/-- The catalog has the columns of a table that goes by the qualifier under the
qualifier itself. -/
def ReachesSource (catalog : Catalog) (sources : List FromItem)
    (qualifier : String) : Prop :=
  ∃ source ∈ sources, source.goesBy qualifier = true ∧
    ∃ table, source.table? catalog = some table ∧
      table.columnNames = columnNames catalog qualifier

/-- An item shows the columns of the tables that it draws on. -/
theorem Draws.shows {item : SelectItem}
    (h : Draws catalog sources item (item.tables catalog sources)) :
    Shows catalog sources item (item.columnNames catalog sources) := by
  rw [SelectItem.columnNames_eq]
  generalize item.tables catalog sources = tables at h ⊢
  cases h with
  | column name => exact .column name
  | named name => exact .named name
  | wildcard hread => exact .wildcard hread
  | @qualified _ source table hmem hname hread =>
    simpa [SelectItem.ownNames] using Shows.qualified hmem hname hread

/-- An item draws on the tables that are taken for it, but for a qualifier that
designates another table or none. -/
theorem draws_tables_iff
    (hsources : ∀ source ∈ sources, (source.table? catalog).isSome = true)
    {item : SelectItem} (hitem : item ≠ .unnamed) :
    Draws catalog sources item (item.tables catalog sources) ↔
      ∀ qualifier, item = .qualifiedWildcard qualifier →
        Designates catalog sources qualifier := by
  cases item with
  | column name => exact iff_of_true (.column name) (by simp)
  | named name => exact iff_of_true (.named name) (by simp)
  | wildcard =>
    obtain ⟨tables, htables⟩ := exists_tables hsources
    have hread : sources.filterMap (·.table? catalog) = tables := by
      calc sources.filterMap (·.table? catalog)
          = (sources.map (·.table? catalog)).filterMap id := by
            rw [List.filterMap_map]
            rfl
        _ = tables := by
            rw [htables, List.filterMap_map]
            exact List.filterMap_some
    refine iff_of_true ?_ (by simp)
    rw [SelectItem.tables, hread]
    exact .wildcard htables
  | unnamed => exact absurd rfl hitem
  | qualifiedWildcard qualifier =>
    simp only [SelectItem.tables, SelectItem.qualifiedWildcard.injEq,
      forall_eq']
    constructor
    · intro hdraws
      generalize htables : (catalog.table? qualifier).toList = tables at hdraws
      cases hdraws with
      | @qualified _ source table hmem hname hread =>
        exact ⟨source, hmem, hname, table, hread, by simpa using htables⟩
    · rintro ⟨source, hmem, hname, table, hread, hpath⟩
      rw [hpath]
      exact .qualified hmem hname hread

/-- What is taken for the output of an item is its output, but for a qualifier
that leads elsewhere. -/
theorem shows_columnNames_iff
    (hsources : ∀ source ∈ sources, (source.table? catalog).isSome = true)
    {item : SelectItem} (hitem : item ≠ .unnamed) :
    Shows catalog sources item (item.columnNames catalog sources) ↔
      ∀ qualifier, item = .qualifiedWildcard qualifier →
        ReachesSource catalog sources qualifier := by
  have hdraws := (draws_tables_iff hsources hitem).2
  cases item with
  | column name => exact iff_of_true (hdraws (by simp)).shows (by simp)
  | named name => exact iff_of_true (hdraws (by simp)).shows (by simp)
  | wildcard => exact iff_of_true (hdraws (by simp)).shows (by simp)
  | unnamed => exact absurd rfl hitem
  | qualifiedWildcard qualifier =>
    simp only [SelectItem.columnNames, SelectItem.qualifiedWildcard.injEq,
      forall_eq']
    constructor
    · intro hshows
      generalize hnames : columnNames catalog qualifier = names at hshows
      cases hshows with
      | @qualified _ source table hmem hname hread =>
        exact ⟨source, hmem, hname, table, hread, hnames.symm⟩
    · rintro ⟨source, hmem, hname, table, hread, hnames⟩
      rw [← hnames]
      exact .qualified hmem hname hread

/-- A path of what is read from designates it. -/
theorem designates_of_hasPath {source : FromItem} (hmem : source ∈ sources)
    (hread : (source.table? catalog).isSome = true) {qualifier : String}
    (hpath : source.hasPath qualifier = true) :
    Designates catalog sources qualifier := by
  cases source with
  | derived => cases hpath
  | table path aliasName =>
    obtain ⟨table, htable⟩ := Option.isSome_iff_exists.1 hread
    have hupper : upper path = upper qualifier := by
      simpa [FromItem.hasPath] using hpath
    refine ⟨_, hmem, by simp [FromItem.goesBy, hupper], table, htable, ?_⟩
    rw [← table?_of_upper_eq hupper]
    exact htable

/-- A qualifier that is no path of the catalog shows nothing, where each table
that goes by it has a column to show. -/
theorem not_shows_of_table?_eq_none {qualifier : String}
    (hpath : catalog.table? qualifier = none)
    (hcolumns : ∀ source ∈ sources, source.goesBy qualifier = true →
      ∀ table, source.table? catalog = some table → table.columns ≠ []) :
    ¬ Shows catalog sources (.qualifiedWildcard qualifier)
      (SelectItem.columnNames catalog sources
        (.qualifiedWildcard qualifier)) := by
  intro hshows
  have hnone : SelectItem.columnNames catalog sources
        (.qualifiedWildcard qualifier) = [] :=
    columnNames_of_table?_eq_none hpath
  generalize hnames : SelectItem.columnNames catalog sources
      (.qualifiedWildcard qualifier)
    = names at hshows hnone
  cases hshows with
  | @qualified _ source table hmem hname hread =>
    exact hcolumns source hmem hname table hread
      (by simpa [Table.columnNames] using hnone)

/-- What holds of each item up to its qualifier holds of a select list up to
all its qualifiers. -/
theorem forall_items_iff {items : List SelectItem} {holds : SelectItem → Prop}
    {leads : String → Prop}
    (h : ∀ item ∈ items, holds item ↔
      ∀ qualifier, item = .qualifiedWildcard qualifier → leads qualifier) :
    (∀ item ∈ items, holds item) ↔
      ∀ qualifier, .qualifiedWildcard qualifier ∈ items → leads qualifier := by
  constructor
  · intro hall qualifier hmem
    exact (h _ hmem).1 (hall _ hmem) qualifier rfl
  · intro hleads item hmem
    refine (h item hmem).2 ?_
    rintro qualifier rfl
    exact hleads qualifier hmem

end

/-! ## Views -/

theorem columnNames_newView (catalog : Catalog) (path : String)
    (materialized : Bool) (query : Query) :
    (newView catalog path [] materialized query).columnNames
      = query.columnNames catalog := by
  have hname : (Column.name ∘ fun name => ({ name := name } : Column)) = id :=
    rfl
  simp [newView, Table.columnNames, hname]

/-- A query without the items that take all columns by the qualifier. -/
def Selection.without (selection : Selection)
    (qualifier : String) : Selection :=
  { selection with
    items := selection.items.filter (· ≠ .qualifiedWildcard qualifier) }

/-- A qualifier that is no path of the catalog adds nothing to a view. -/
theorem columnNames_without {selection : Selection} {catalog : Catalog}
    {qualifier : String} (hpath : catalog.table? qualifier = none) :
    (Query.select (selection.without qualifier)).columnNames catalog
      = (Query.select selection).columnNames catalog := by
  obtain ⟨items, sources⟩ := selection
  simp only [Query.columnNames, Selection.without]
  induction items with
  | nil => rfl
  | cons item items ih =>
    rw [List.flatMap_cons, ← ih, List.filter_cons]
    by_cases hitem : item = .qualifiedWildcard qualifier
    · simp [hitem, SelectItem.columnNames, columnNames_of_table?_eq_none hpath]
    · simp [hitem]

/-- A view that lists no columns is filed with the columns that are taken for
the output of its items, one item after the other: own names, and all columns of
the tables that are taken for an item. These are the tables that the items draw
on iff every qualifier of a wildcard designates, as a path of the catalog, the
table of what is read from and goes by it, and then the columns are the output
item by item. A qualifier that is no path of the catalog,
as an alias need not be one, adds nothing: the view is that of the query without
it. The names alone are right iff every qualifier leads to the columns of a
table that goes by it, as the path of such a table does. -/
theorem view_columns_are_outputs_iff {catalog : Catalog} {query : Query}
    {selection : Selection} (hquery : query.leftmost? = some selection)
    (hitems : ∀ item ∈ selection.items, item ≠ .unnamed)
    (hsources : ∀ source ∈ selection.sources,
      (source.table? catalog).isSome = true) (path : String)
    (materialized : Bool) :
    let view := newView catalog path [] materialized query
    ((Statement.createView path [] materialized query).apply catalog).filed?
          (catalog.filingKey view) (upper view.name)
        = some view ∧
      view.columnNames
        = selection.items.flatMap (·.columnNames catalog selection.sources) ∧
      view.columnNames
        = selection.items.flatMap (fun item => item.ownNames
          ++ (item.tables catalog selection.sources).flatMap
            Table.columnNames) ∧
      ((∀ item ∈ selection.items,
          Draws catalog selection.sources item
            (item.tables catalog selection.sources)) ↔
        ∀ qualifier, .qualifiedWildcard qualifier ∈ selection.items →
          Designates catalog selection.sources qualifier) ∧
      ((∀ qualifier, .qualifiedWildcard qualifier ∈ selection.items →
          Designates catalog selection.sources qualifier) →
        selection.ShowsAs catalog view.columnNames) ∧
      (∀ qualifier, catalog.table? qualifier = none →
        view = newView catalog path [] materialized
            (.select (selection.without qualifier)) ∧
          ((∀ source ∈ selection.sources, source.goesBy qualifier = true →
              ∀ table,
                source.table? catalog = some table → table.columns ≠ []) →
            ¬ Shows catalog selection.sources (.qualifiedWildcard qualifier)
              (SelectItem.columnNames catalog selection.sources
                (.qualifiedWildcard qualifier)))) ∧
      ((∀ item ∈ selection.items,
          Shows catalog selection.sources item
            (item.columnNames catalog selection.sources)) ↔
        ∀ qualifier, .qualifiedWildcard qualifier ∈ selection.items →
          ReachesSource catalog selection.sources qualifier) ∧
      ((∀ qualifier, .qualifiedWildcard qualifier ∈ selection.items →
          ReachesSource catalog selection.sources qualifier) →
        selection.ShowsAs catalog view.columnNames) ∧
      ((∀ qualifier, .qualifiedWildcard qualifier ∈ selection.items →
          ∃ source ∈ selection.sources, source.hasPath qualifier = true) →
        selection.ShowsAs catalog view.columnNames) := by
  intro view
  have hnames : view.columnNames
      = selection.items.flatMap (·.columnNames catalog selection.sources) := by
    rw [columnNames_newView, Query.columnNames_eq hquery]
  have hdraws : (∀ item ∈ selection.items,
        Draws catalog selection.sources item
          (item.tables catalog selection.sources)) ↔
      ∀ qualifier, .qualifiedWildcard qualifier ∈ selection.items →
        Designates catalog selection.sources qualifier :=
    forall_items_iff fun item hmem =>
      draws_tables_iff hsources (hitems item hmem)
  have hdesignated : (∀ qualifier,
        .qualifiedWildcard qualifier ∈ selection.items →
          Designates catalog selection.sources qualifier) →
      selection.ShowsAs catalog view.columnNames :=
    fun h => ⟨_, fun item hmem => (hdraws.2 h item hmem).shows, hnames⟩
  have hshows : (∀ item ∈ selection.items,
        Shows catalog selection.sources item
          (item.columnNames catalog selection.sources)) ↔
      ∀ qualifier, .qualifiedWildcard qualifier ∈ selection.items →
        ReachesSource catalog selection.sources qualifier :=
    forall_items_iff fun item hmem =>
      shows_columnNames_iff hsources (hitems item hmem)
  refine ⟨?_, hnames, ?_, hdraws, hdesignated, ?_, hshows,
    fun hreaches => ⟨_, hshows.2 hreaches, hnames⟩, ?_⟩
  · rw [Statement.apply, Catalog.filed?_addTable, if_pos ⟨rfl, rfl⟩]
  · simp only [hnames, SelectItem.columnNames_eq]
  · intro qualifier hpath
    refine ⟨?_, not_shows_of_table?_eq_none hpath⟩
    have hwithout : (Query.select (selection.without qualifier)).columnNames
          catalog
        = query.columnNames catalog := by
      rw [Query.columnNames_eq hquery]
      exact columnNames_without hpath
    simp only [view, newView, List.isEmpty_nil, if_true, hwithout]
  · intro hpaths
    refine hdesignated fun qualifier hmem => ?_
    obtain ⟨source, hsource, hpath⟩ := hpaths qualifier hmem
    exact designates_of_hasPath hsource (hsources source hsource) hpath

/-- Two tables, one of them in a schema of its own. -/
def staffCatalog : Catalog :=
  .ofTables
    [{ name := "emp", columns := [{ name := "id" }, { name := "name" }] },
      { name := "dept", schema := some "hr", columns := [{ name := "dno" }] }]

/-- All columns of the second table by its path, single columns, and all columns
of both tables. -/
def staffSelection : Selection where
  items :=
    [.qualifiedWildcard "HR.Dept", .column "id", .named "label", .wildcard]
  sources := [.table "emp" (some "e"), .table "hr.dept" none]

theorem view_columns_are_outputs_staffSelection :
    (∀ item ∈ staffSelection.items, item ≠ .unnamed) ∧
      (∀ source ∈ staffSelection.sources,
        (source.table? staffCatalog).isSome = true) ∧
      (newView staffCatalog "v" [] false
          (.setOperation (.select staffSelection) .other)).columnNames
        = ["dno", "id", "label", "id", "name", "dno"] ∧
      staffSelection.ShowsAs staffCatalog
        ["dno", "id", "label", "id", "name", "dno"] := by
  have hitems : ∀ item ∈ staffSelection.items, item ≠ .unnamed := by decide
  have hsources : ∀ source ∈ staffSelection.sources,
      (source.table? staffCatalog).isSome = true := by decide +kernel
  have hpaths : ∀ item ∈ staffSelection.items, ∀ qualifier,
      item = .qualifiedWildcard qualifier →
        ∃ source ∈ staffSelection.sources, source.hasPath qualifier = true := by
    intro item hitem qualifier hqualifier
    have hname : qualifier = "HR.Dept" := by
      subst hqualifier
      simpa [staffSelection] using hitem
    subst hname
    decide +kernel
  have hnames : (newView staffCatalog "v" [] false
        (.setOperation (.select staffSelection) .other)).columnNames
      = ["dno", "id", "label", "id", "name", "dno"] := by decide +kernel
  have hquery : (Query.setOperation (.select staffSelection) .other).leftmost?
      = some staffSelection := rfl
  obtain ⟨-, -, -, -, -, -, -, -, hshown⟩ :=
    view_columns_are_outputs_iff hquery hitems hsources "v" false
  rw [hnames] at hshown
  exact ⟨hitems, hsources, hnames,
    hshown fun qualifier hmem => hpaths _ hmem qualifier rfl⟩

/-- All columns of a table by its alias. -/
def aliasedSelection : Selection where
  items := [.qualifiedWildcard "e"]
  sources := [.table "emp" (some "e")]

/-- The alias is no path of the catalog, so the view has no columns, where the
table has two. -/
theorem view_columns_are_lost_aliasedSelection :
    (∀ source ∈ aliasedSelection.sources,
        (source.table? staffCatalog).isSome = true ∧ source.goesBy "e" = true) ∧
      (newView staffCatalog "v" [] false (.select aliasedSelection)).columnNames
        = [] ∧
      aliasedSelection.ShowsAs staffCatalog ["id", "name"] ∧
      ¬ aliasedSelection.ShowsAs staffCatalog [] := by
  have hread : (FromItem.table "emp" (some "e")).table? staffCatalog
      = some { name := "emp",
               columns := [{ name := "id" }, { name := "name" }] } := by
    decide +kernel
  refine ⟨by decide +kernel, by decide +kernel,
    ⟨fun _ => ["id", "name"], ?_, rfl⟩, ?_⟩
  · intro item hitem
    rw [List.mem_singleton.1 hitem]
    exact .qualified (List.mem_singleton.2 rfl) (by decide +kernel) hread
  · rintro ⟨outputs, hshows, hnames⟩
    have hitem := hshows (.qualifiedWildcard "e") (List.mem_singleton.2 rfl)
    have hnone : outputs (.qualifiedWildcard "e") = [] := by
      simpa [aliasedSelection] using hnames.symm
    rw [hnone] at hitem
    generalize hempty : ([] : List String) = names at hitem
    cases hitem with
    | @qualified _ source table hmem hname hsource =>
      rw [List.mem_singleton.1 hmem, hread] at hsource
      cases hsource
      cases hempty

end Ddl

end QueryAssist
