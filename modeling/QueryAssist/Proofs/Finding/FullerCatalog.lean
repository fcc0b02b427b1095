import Mathlib.Data.List.Forall2
import QueryAssist.Finding.Analysis
import QueryAssist.Proofs.Finding.Missed

/-!
# Fuller catalogs

A catalog that describes more columns of the same tables never leads to more
warnings. What a name stands for stays the same but for the columns of tables,
so each list of columns only grows, also through wildcards; and whether all
columns of a source are known does not depend on the columns of tables at all.
So a lookup that misses a column with the fuller catalog missed it before.
-/

namespace QueryAssist

open Text

/-! ## The relation -/

/-- The second table has the name of the first and at least its columns, in the
same order. -/
structure Table.Within (t t' : Table) : Prop where
  name : t.name = t'.name
  columns : t.columns.Sublist t'.columns

/-- The same keys in the same order, with related values. -/
def Entries.Alike {α : Type} (R : α → α → Prop)
    (entries entries' : Entries α) : Prop :=
  List.Forall₂ (fun e e' => e.1 = e'.1 ∧ R e.2 e'.2) entries entries'

/-- The second catalog has the schemas, the default schema and the tables of the
first, with at least their columns. -/
structure Catalog.Within (c c' : Catalog) : Prop where
  defaultSchema : c.defaultSchema = c'.defaultSchema
  schemas : Entries.Alike
    (fun s s' : Schema => s.tables.Alike Table.Within s'.tables) c.schemas
    c'.schemas

namespace Entries.Alike

variable {α : Type} {R : α → α → Prop} {entries entries' : Entries α}

theorem get? (h : Alike R entries entries') (key : String) :
    Option.Rel R (entries.get? key) (entries'.get? key) := by
  induction h with
  | nil => exact .none
  | cons hhead htail ih =>
    rw [Entries.get?, Entries.get?, ← hhead.1]
    split
    · exact .some hhead.2
    · exact ih

theorem values (h : Alike R entries entries') :
    List.Forall₂ R entries.values entries'.values := by
  rw [Entries.values, Entries.values, List.forall₂_map_left_iff,
    List.forall₂_map_right_iff]
  exact h.imp fun _ _ hentry => hentry.2

end Entries.Alike

/-! ## Options -/

section Rel

variable {α β γ δ : Type} {R : α → β → Prop} {S : γ → δ → Prop}

theorem rel_bind {a : Option α} {b : Option β} {f : α → Option γ}
    {g : β → Option δ} (h : Option.Rel R a b)
    (hf : ∀ a b, R a b → Option.Rel S (f a) (g b)) :
    Option.Rel S (a.bind f) (b.bind g) := by
  cases h with
  | none => exact .none
  | some h => exact hf _ _ h

theorem rel_orElse {a a' : Option α} {b b' : Option β} (h : Option.Rel R a b)
    (h' : Option.Rel R a' b') : Option.Rel R (a <|> a') (b <|> b') := by
  cases h with
  | none => exact h'
  | some h => exact .some h

theorem rel_findSome? {as : List α} {bs : List β} {f : α → Option γ}
    {g : β → Option δ} (h : List.Forall₂ R as bs)
    (hf : ∀ a b, R a b → Option.Rel S (f a) (g b)) :
    Option.Rel S (as.findSome? f) (bs.findSome? g) := by
  induction h with
  | nil => exact .none
  | @cons a b as bs hhead htail ih =>
    have hrel := hf a b hhead
    rw [List.findSome?_cons, List.findSome?_cons]
    generalize f a = first, g b = first' at hrel
    cases hrel with
    | none => exact ih
    | some hrel => exact .some hrel

theorem isSome_of_rel {a : Option α} {b : Option β}
    (h : Option.Rel R a b) : a.isSome = b.isSome := by
  cases h <;> rfl

end Rel

/-! ## Tables -/

namespace Catalog.Within

variable {catalog catalog' : Catalog} (h : catalog.Within catalog')

include h

theorem schema? (name : String) :
    Option.Rel (fun s s' : Schema => s.tables.Alike Table.Within s'.tables)
      (catalog.schema? name) (catalog'.schema? name) :=
  h.schemas.get? _

theorem table? (name : String) :
    Option.Rel Table.Within (catalog.table? name) (catalog'.table? name) := by
  rw [Catalog.table?, Catalog.table?]
  cases (QualifiedName.parse name).schema with
  | some schema =>
    exact rel_bind (h.schema? schema) fun _ _ htables => htables.get? _
  | none =>
    refine rel_orElse ?_
      (rel_findSome? h.schemas.values fun _ _ htables => htables.get? _)
    rw [h.defaultSchema]
    cases catalog'.defaultSchema with
    | none => exact .none
    | some schema =>
      exact rel_bind (h.schema? schema) fun _ _ htables => htables.get? _

theorem tableNames :
    catalog.tables.map (·.name) = catalog'.tables.map (·.name) := by
  have hnames : List.Forall₂
      (fun s s' : Schema =>
        s.tables.values.map (·.name) = s'.tables.values.map (·.name))
      catalog.schemas.values catalog'.schemas.values := by
    refine h.schemas.values.imp fun s s' htables => ?_
    rw [← List.forall₂_eq_eq_eq, List.forall₂_map_left_iff,
      List.forall₂_map_right_iff]
    exact htables.values.imp fun _ _ htable => htable.name
  rw [← List.forall₂_map_right_iff, ← List.forall₂_map_left_iff,
    List.forall₂_eq_eq_eq] at hnames
  rw [Catalog.tables, Catalog.tables, List.map_flatMap, List.map_flatMap,
    List.flatMap_def, List.flatMap_def, hnames]

end Catalog.Within

/-! ## Columns -/

/-- The same subquery, or a table with at least the columns. -/
inductive Source.Within : Source → Source → Prop
  | subquery (s : Subquery) : Within (.subquery s) (.subquery s)
  | table {t t' : Table} (h : t.Within t') : Within (.table t) (.table t')

/-- At least the names, in the same order, and as complete. -/
structure ColumnList.Within (a b : ColumnList) : Prop where
  names : (a.columns.map ColumnRef.name).Sublist (b.columns.map ColumnRef.name)
  complete : a.complete = b.complete

namespace ColumnList.Within

variable {a a' b b' : ColumnList}

theorem refl (a : ColumnList) : a.Within a := ⟨.refl _, rfl⟩

theorem append (h : a.Within b) (h' : a'.Within b') :
    (a.append a').Within (b.append b') := by
  refine ⟨?_, ?_⟩
  · simp only [ColumnList.append, List.map_append]
    exact h.names.append h'.names
  · rw [ColumnList.append, ColumnList.append, h.complete, h'.complete]

theorem concat_map {α : Type} {f g : α → ColumnList} (l : List α)
    (h : ∀ x, (f x).Within (g x)) :
    (concat (l.map f)).Within (concat (l.map g)) := by
  induction l with
  | nil => exact refl _
  | cons x l ih => exact (h x).append ih

end ColumnList.Within

theorem Table.Within.tableColumns {t t' : Table} (h : t.Within t') :
    (Resolver.tableColumns t).Within (Resolver.tableColumns t') := by
  refine ⟨?_, rfl⟩
  simp only [Resolver.tableColumns, List.map_map]
  exact h.columns.map Column.name

/-- The same document, read against the second catalog. -/
structure Resolver.Within (r r' : Resolver) : Prop where
  document : r.document = r'.document
  catalog : Option.Rel Catalog.Within r.catalog r'.catalog

namespace Resolver.Within

variable {r r' : Resolver} (h : r.Within r')

include h

/-- Only the document binds names. -/
theorem bodyBindings : r.bodyBindings = r'.bodyBindings := by
  cases r
  cases r'
  cases h.document
  rfl

theorem source? (name : String) (visible : List Subquery) :
    Option.Rel Source.Within (r.source? name visible)
      (r'.source? name visible) := by
  rw [Resolver.source?, Resolver.source?]
  cases findSubquery visible name with
  | some s => exact .some (.subquery s)
  | none =>
    have htable := rel_bind h.catalog fun _ _ hcatalog => hcatalog.table? name
    generalize r.catalog.bind _ = table, r'.catalog.bind _ = table' at htable
    cases htable with
    | none => exact .none
    | some htable => exact .some (.table htable)

/-- The columns of wildcards grow with those of the tables they stand for, by
induction on how deep wildcards are followed. -/
theorem expandWithin (depth : Nat) (visited : List String) (s : Subquery) :
    (r.expandWithin depth visited s).Within
      (r'.expandWithin depth visited s) := by
  induction depth generalizing visited s with
  | zero =>
    unfold Resolver.expandWithin
    split
    · exact .refl _
    · split <;> exact .refl _
  | succ depth ih =>
    unfold Resolver.expandWithin
    rw [← h.bodyBindings]
    split
    · exact .refl _
    · split
      · exact .refl _
      · refine ColumnList.Within.concat_map _ fun target => ?_
        have hsource := h.source? target (r.bodyBindings s).visible
        generalize r.source? target _ = source,
        r'.source? target _ = source' at hsource
        cases hsource with
        | none => exact .refl _
        | some hsource =>
          cases hsource with
          | table htable => exact htable.tableColumns
          | subquery inner =>
            exact (ColumnList.Within.refl _).append (ih _ inner)

theorem sourceColumns {source source' : Source}
    (hsource : source.Within source') :
    (r.sourceColumns source).Within (r'.sourceColumns source') := by
  cases hsource with
  | table htable => exact htable.tableColumns
  | subquery s =>
    have hlength : r.subqueries.length = r'.subqueries.length := by
      rw [Resolver.subqueries, Resolver.subqueries, h.document]
    refine (ColumnList.Within.refl _).append ?_
    rw [Resolver.expand, Resolver.expand, hlength]
    exact h.expandWithin _ _ s

/-! ## Lookups -/

theorem lookupIn_misses {source source' : Source}
    (hsource : source.Within source') {column : String}
    (hmisses : (r'.lookupIn source' column).misses = true) :
    (r.lookupIn source column).misses = true := by
  obtain ⟨hnames, hcomplete⟩ := h.sourceColumns hsource
  rw [Resolver.lookupIn_misses, Bool.and_eq_true, Option.isNone_iff_eq_none,
    Resolver.columnIn?] at hmisses ⊢
  refine ⟨hcomplete.trans hmisses.1, List.find?_eq_none.2 fun c hc hsame => ?_⟩
  obtain ⟨c', hc', hname⟩ :=
    List.mem_map.1 (hnames.subset (List.mem_map_of_mem hc))
  rw [← hname] at hsame
  exact List.find?_eq_none.1 hmisses.2 c' hc' hsame

/-- A source that is asked under both catalogs misses a column under the first
if it does under the second. -/
theorem source_misses {name column : String} {visible : List Subquery}
    (hmisses : ((r'.source? name visible).any fun source =>
        (r'.lookupIn source column).misses) = true) :
    ((r.source? name visible).any fun source =>
        (r.lookupIn source column).misses) = true := by
  have hsource := h.source? name visible
  generalize r.source? name visible = source,
  r'.source? name visible = source' at hsource hmisses
  cases hsource with
  | none => cases hmisses
  | some hsource =>
    rw [Option.any_some] at hmisses ⊢
    exact h.lookupIn_misses hsource hmisses

theorem lookupQualified_misses {bindings : Bindings} {qualifier column : String}
    (hmisses : (r'.lookupQualified bindings qualifier column).misses = true) :
    (r.lookupQualified bindings qualifier column).misses = true := by
  rw [Resolver.lookupQualified_misses] at hmisses ⊢
  exact h.source_misses hmisses

theorem lookupUnqualified_misses {bindings : Bindings} {column : String}
    (hmisses : (r'.lookupUnqualified bindings column).misses = true) :
    (r.lookupUnqualified bindings column).misses = true := by
  rw [Resolver.lookupUnqualified_misses, Bool.and_eq_true,
    List.all_eq_true] at hmisses ⊢
  exact ⟨hmisses.1,
    fun table htable => h.source_misses (hmisses.2 table htable)⟩

end Resolver.Within

/-! ## Findings -/

namespace ReferenceCheck

/-- Which columns are looked up is no matter of the catalog. -/
theorem bareColumns_of_catalogs (document : Document)
    (catalog catalog' : Catalog) (dialect : Dialect) (previous : Option Token)
    (tokens : List Token) :
    (ofDocument document catalog dialect).bareColumns previous tokens
      = (ofDocument document catalog' dialect).bareColumns previous tokens := by
  have hdefined : (ofDocument document catalog dialect).definedNames
      = (ofDocument document catalog' dialect).definedNames := rfl
  have hbare : (ofDocument document catalog dialect).isBareColumn
      = (ofDocument document catalog' dialect).isBareColumn := rfl
  have hchecks : (ofDocument document catalog dialect).checksBareColumnsAt
      = (ofDocument document catalog' dialect).checksBareColumnsAt := rfl
  induction tokens generalizing previous with
  | nil => rfl
  | cons t ts ih => rw [bareColumns, bareColumns, ih, hdefined, hbare, hchecks]

variable {document : Document} {catalog catalog' : Catalog}
  (h : catalog.Within catalog') (dialect : Dialect)

include h

theorem unknownTables_of_within :
    (ofDocument document catalog dialect).unknownTables
      = (ofDocument document catalog' dialect).unknownTables := by
  have hcatalog : ∀ c, (ofDocument document c dialect).catalog = c :=
    fun _ => rfl
  have hsubqueries : ∀ c,
      (ofDocument document c dialect).resolver.subqueries
        = document.subqueries := fun _ => rfl
  have htext : ∀ c, (ofDocument document c dialect).text = document.text :=
    fun _ => rfl
  have htables : ∀ c,
      (ofDocument document c dialect).tables = tableRefs document.tokens :=
    fun _ => rfl
  have htable : (ofDocument document catalog dialect).unknownTable?
      = (ofDocument document catalog' dialect).unknownTable? := by
    funext table
    have hhas : catalog.hasTable table.name = catalog'.hasTable table.name :=
      isSome_of_rel (h.table? table.name)
    simp only [unknownTable?, hcatalog, hsubqueries, htext, hhas, h.tableNames]
  rw [unknownTables, unknownTables, htable, htables, htables]

theorem missedColumns_of_within :
    (ofDocument document catalog' dialect).missedColumns.Sublist
      (ofDocument document catalog dialect).missedColumns := by
  have hresolver : (ofDocument document catalog dialect).resolver.Within
      (ofDocument document catalog' dialect).resolver :=
    ⟨rfl, .some h⟩
  refine List.Sublist.append (List.Sublist.map Prod.snd ?_) ?_
  · exact List.monotone_filter_right _ fun column hmisses =>
      hresolver.lookupQualified_misses hmisses
  · rw [bareColumns_of_catalogs document catalog' catalog]
    exact List.monotone_filter_right _ fun t hmisses =>
      hresolver.lookupUnqualified_misses hmisses

end ReferenceCheck

/-- With at least the columns described for the same tables of the same schemas,
the findings for unknown tables are the same, and the findings for unknown
columns are some of those that were there, in their order. -/
theorem more_columns_fewer_warnings (catalog catalog' : Catalog)
    (h : catalog.Within catalog') (text : Text) (dialect : Dialect) :
    let check :=
      ReferenceCheck.ofDocument (Document.ofText text) catalog dialect
    let check' :=
      ReferenceCheck.ofDocument (Document.ofText text) catalog' dialect
    check.unknownTables = check'.unknownTables ∧
      (check'.unknownColumns.map (·.span.offset)).Sublist
        (check.unknownColumns.map (·.span.offset)) := by
  intro check check'
  refine ⟨ReferenceCheck.unknownTables_of_within h dialect, ?_⟩
  rw [ReferenceCheck.unknownColumns_offset rfl,
    ReferenceCheck.unknownColumns_offset rfl]
  exact (ReferenceCheck.missedColumns_of_within h dialect).map Token.start

/-- The catalog of one table with the given columns. -/
def catalogOf (columns : List Column) : Catalog :=
  { schemas :=
      [("", { name := "", tables := [("T", { name := "T", columns })] })] }

/-- A query that reads from a table through a wildcard, and names a table that
is not described. -/
def gappyQuery : Text :=
  "WITH a AS (SELECT * FROM t) SELECT a.id, a.no, a.x FROM a, gone".toList

theorem more_columns_fewer_warnings_gappyQuery :
    let sparse := catalogOf [{ name := "id" }]
    let fuller := catalogOf [{ name := "no" }, { name := "id" }]
    let check :=
      ReferenceCheck.ofDocument (Document.ofText gappyQuery) sparse .postgresql
    let check' :=
      ReferenceCheck.ofDocument (Document.ofText gappyQuery) fuller .postgresql
    sparse.Within fuller ∧ check.unknownTables = check'.unknownTables ∧
      check.unknownTables.map (·.span.offset) = [59] ∧
      check.unknownColumns.map (·.span.offset) = [43, 49] ∧
      check'.unknownColumns.map (·.span.offset) = [49] ∧
      (check'.unknownColumns.map (·.span.offset)).Sublist
        (check.unknownColumns.map (·.span.offset)) := by
  intro sparse fuller check check'
  have hwithin : sparse.Within fuller := by
    refine ⟨rfl, .cons ⟨rfl, .cons ⟨rfl, rfl, ?_⟩ .nil⟩ .nil⟩
    exact List.sublist_cons_self _ _
  obtain ⟨htables, hcolumns⟩ :=
    more_columns_fewer_warnings sparse fuller hwithin gappyQuery .postgresql
  exact ⟨hwithin, htables, by decide +kernel, by decide +kernel,
    by decide +kernel, hcolumns⟩

end QueryAssist
