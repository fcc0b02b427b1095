import QueryAssist.Ddl.Load
import QueryAssist.Proofs.Catalog.Filing

/-!
# Primary keys and nulls

A column of a primary key takes no nulls: whoever makes a column part of the key
also forbids nulls. Of the options of one column, though, the last that speaks
of nulls counts, so a `NULL` behind `PRIMARY KEY` allows them again. Nothing
else does: after any statements, a key that takes nulls goes back to a
definition with such options.
-/

namespace QueryAssist

/-! ## What holds of every table -/

/-- No key comes twice, and every table satisfies `P`. -/
structure Catalog.Throughout (P : Table → Prop)
    (catalog : Catalog) : Prop extends catalog.Keyed where
  holds : ∀ schemaKey key table,
    catalog.filed? schemaKey key = some table → P table

namespace Catalog.Throughout

variable {P : Table → Prop} {catalog : Catalog}

theorem empty (P : Table → Prop) (defaultSchema : Option String) :
    Throughout P { defaultSchema } where
  schemas := List.nodup_nil
  tables _ := List.nodup_nil
  holds := by
    intro schemaKey key table h
    cases h

theorem of_mem_tables (h : catalog.Throughout P) {table : Table}
    (hmem : table ∈ catalog.tables) : P table := by
  obtain ⟨schemaKey, key, hentry⟩ := exists_filed?_of_mem_tables h.toKeyed hmem
  exact h.holds schemaKey key table hentry

theorem addTable (h : catalog.Throughout P) {table : Table} (htable : P table) :
    (catalog.addTable table).Throughout P where
  toKeyed := h.toKeyed.addTable table
  holds := by
    intro schemaKey key other hentry
    rw [filed?_addTable] at hentry
    split at hentry
    · exact Option.some.inj hentry ▸ htable
    · exact h.holds schemaKey key other hentry

/-- A change that keeps `P` of a table keeps it of all, whether there is a table
of the name or not. -/
theorem modifyTable? (h : catalog.Throughout P) (name : String)
    {f : Table → Table} (hf : ∀ t, P t → P (f t)) :
    ((catalog.modifyTable? name f).getD catalog).Throughout P := by
  cases hchanged : catalog.modifyTable? name f with
  | none => exact h
  | some changed =>
    obtain ⟨schemaKey, key, rfl⟩ := modifyTable?_eq_some h.schemas hchanged
    refine ⟨h.toKeyed.alterEntry schemaKey key f, ?_⟩
    intro otherSchema other table hentry
    rw [Option.getD_some, filed?_alterEntry] at hentry
    split at hentry
    · obtain ⟨before, hbefore, rfl⟩ := Option.map_eq_some_iff.1 hentry
      exact hf before (h.holds otherSchema other before hbefore)
    · exact h.holds otherSchema other table hentry

end Catalog.Throughout

/-- An element of a changed list is an old one or the change of an old one. -/
theorem mem_modifyFirst {α : Type} {p : α → Bool} {f : α → α} {items : List α}
    {a : α} (h : a ∈ modifyFirst p f items) :
    a ∈ items ∨ ∃ b ∈ items, a = f b := by
  induction items with
  | nil => cases h
  | cons b rest ih =>
    rw [modifyFirst] at h
    split at h
    · rcases List.mem_cons.1 h with rfl | hrest
      · exact Or.inr ⟨b, List.mem_cons_self, rfl⟩
      · exact Or.inl (List.mem_cons_of_mem b hrest)
    · rcases List.mem_cons.1 h with rfl | hrest
      · exact Or.inl List.mem_cons_self
      · rcases ih hrest with hold | ⟨c, hc, rfl⟩
        · exact Or.inl (List.mem_cons_of_mem b hold)
        · exact Or.inr ⟨c, List.mem_cons_of_mem b hc, rfl⟩

namespace Ddl

/-! ## The options of one column -/

/-- What an option says on nulls, if anything. -/
def ColumnOption.nulls? : ColumnOption → Option Bool
  | null => some true
  | notNull | primaryKey => some false
  | comment _ | other => none

/-- Whether a definition makes its column a key and yet lets it take nulls: the
last option that speaks of nulls is `NULL`. -/
def ColumnDefinition.reopensKey (definition : ColumnDefinition) : Bool :=
  definition.options.contains .primaryKey
    && definition.options.reverse.findSome? ColumnOption.nulls? == some true

/-- The last option that speaks of nulls decides. -/
theorem nullable_foldl (options : List ColumnOption) (column : Column) :
    (options.foldl ColumnOption.apply column).nullable
      = (options.reverse.findSome? ColumnOption.nulls?).or column.nullable := by
  induction options generalizing column with
  | nil => rfl
  | cons option rest ih =>
    rw [List.foldl_cons, ih, List.reverse_cons, List.findSome?_append,
      Option.or_assoc]
    congr 1
    cases option <;> rfl

/-- One option is enough for a key. -/
theorem isPrimaryKey_foldl (options : List ColumnOption) (column : Column) :
    (options.foldl ColumnOption.apply column).isPrimaryKey
      = if options.contains .primaryKey then some true
        else column.isPrimaryKey := by
  induction options generalizing column with
  | nil => rfl
  | cons option rest ih =>
    rw [List.foldl_cons, ih]
    cases option
      <;> simp [ColumnOption.apply, Column.notNull, Column.primaryKey]

theorem dataType_foldl (options : List ColumnOption) (column : Column) :
    (options.foldl ColumnOption.apply column).dataType = column.dataType := by
  induction options generalizing column with
  | nil => rfl
  | cons option rest ih =>
    rw [List.foldl_cons, ih]
    cases option <;> rfl

/-- A definition gives a key that may take nulls iff it reopens it. -/
theorem reopensKey_iff (definition : ColumnDefinition) :
    definition.reopensKey = true ↔
      definition.column.isPrimaryKey = some true ∧
        definition.column.nullable ≠ some false := by
  rw [ColumnDefinition.column, nullable_foldl, isPrimaryKey_foldl,
    ColumnDefinition.reopensKey]
  cases hkey : definition.options.contains .primaryKey with
  | false => simp
  | true =>
    -- The key itself speaks of nulls, so the word at the start never counts.
    have hspeaks : (definition.options.reverse.findSome?
        ColumnOption.nulls?).isSome := by
      rw [List.findSome?_isSome_iff]
      exact ⟨.primaryKey, by simpa using hkey, rfl⟩
    obtain ⟨last, hlast⟩ := Option.isSome_iff_exists.1 hspeaks
    cases last <;> simp [hlast]

/-! ## Keys through a run -/

/-- If the column is a key, it takes no nulls, or else it has the type of one of
the definitions, which reopens its key. -/
def KeyAccounted (definitions : List ColumnDefinition)
    (column : Column) : Prop :=
  column.isPrimaryKey = some true →
    column.nullable = some false ∨
      ∃ d ∈ definitions, d.reopensKey = true ∧ column.dataType = some d.dataType

/-- The same of every column of a table. -/
def KeysAccounted (definitions : List ColumnDefinition)
    (table : Table) : Prop :=
  ∀ column ∈ table.columns, KeyAccounted definitions column

/-- The columns that an alteration defines. -/
def Alteration.definitions : Alteration → List ColumnDefinition
  | addColumn column => [column]
  | dropColumn _ | renameColumn .. | addConstraint _ | other => []

/-- The columns that a statement defines. -/
def Statement.definitions : Statement → List ColumnDefinition
  | createTable _ columns _ => columns
  | alterTable _ alterations => alterations.flatMap Alteration.definitions
  | createView .. | comment .. | other => []

section

variable {definitions : List ColumnDefinition} {table : Table}
  {catalog : Catalog}

theorem keyAccounted_column {definition : ColumnDefinition}
    (h : definition ∈ definitions) :
    KeyAccounted definitions definition.column := by
  intro hkey
  by_cases hnulls : definition.column.nullable = some false
  · exact Or.inl hnulls
  · exact Or.inr
      ⟨definition, h, (reopensKey_iff definition).2 ⟨hkey, hnulls⟩,
        dataType_foldl _ _⟩

theorem keyAccounted_primaryKey (column : Column) :
    KeyAccounted definitions column.primaryKey :=
  fun _ => Or.inl rfl

theorem keysAccounted_modifyColumn (h : KeysAccounted definitions table)
    (name : String) {f : Column → Column}
    (hf : ∀ c, KeyAccounted definitions c → KeyAccounted definitions (f c)) :
    KeysAccounted definitions (table.modifyColumn name f) := by
  intro column hmem
  rcases mem_modifyFirst hmem with hold | ⟨before, hbefore, rfl⟩
  · exact h column hold
  · exact hf before (h before hbefore)

theorem keysAccounted_foldl {α : Type} {step : Table → α → Table}
    {items : List α} (h : KeysAccounted definitions table)
    (hstep : ∀ a ∈ items,
      ∀ t, KeysAccounted definitions t → KeysAccounted definitions (step t a)) :
    KeysAccounted definitions (items.foldl step table) := by
  induction items generalizing table with
  | nil => exact h
  | cons a rest ih =>
    exact ih (hstep a List.mem_cons_self table h) fun b hb =>
      hstep b (List.mem_cons_of_mem a hb)

theorem keysAccounted_constraint (constraint : TableConstraint)
    (h : KeysAccounted definitions table) :
    KeysAccounted definitions (constraint.apply table) := by
  cases constraint with
  | primaryKey columns =>
    refine keysAccounted_foldl h ?_
    intro name _ t ht
    exact keysAccounted_modifyColumn ht name fun c _ =>
      keyAccounted_primaryKey c
  | other => exact h

theorem keysAccounted_alteration (alteration : Alteration)
    (hdefined : alteration.definitions ⊆ definitions)
    (h : KeysAccounted definitions table) :
    KeysAccounted definitions (alteration.apply table) := by
  cases alteration with
  | addColumn definition =>
    intro column hmem
    rcases List.mem_append.1 hmem with hold | hnew
    · exact h column hold
    · rw [List.mem_singleton.1 hnew]
      exact keyAccounted_column (hdefined List.mem_cons_self)
  | dropColumn name =>
    exact fun column hmem => h column (List.mem_of_mem_filter hmem)
  | renameColumn old new =>
    exact keysAccounted_modifyColumn h old fun c hc => hc
  | addConstraint constraint => exact keysAccounted_constraint constraint h
  | other => exact h

theorem keysAccounted_newTable (path : String) {columns : List ColumnDefinition}
    (constraints : List TableConstraint) (hdefined : columns ⊆ definitions) :
    KeysAccounted definitions (newTable path columns constraints) := by
  refine keysAccounted_foldl ?_ fun constraint _ t ht =>
    keysAccounted_constraint constraint ht
  intro column hmem
  obtain ⟨definition, hdefinition, rfl⟩ := List.mem_map.1 hmem
  exact keyAccounted_column (hdefined hdefinition)

/-- No column of a view is a key. -/
theorem keysAccounted_newView (catalog : Catalog) (path : String)
    (columns : List String) (materialized : Bool) (query : Query) :
    KeysAccounted definitions
      (newView catalog path columns materialized query) := by
  intro column hmem hkey
  obtain ⟨name, -, rfl⟩ := List.mem_map.1 hmem
  cases hkey

theorem keysAccounted_describe
    (h : catalog.Throughout (KeysAccounted definitions))
    (target : CommentTarget) (path : String) (text : Option String) :
    (describe catalog target path text).Throughout
      (KeysAccounted definitions) := by
  cases target with
  | table => exact h.modifyTable? path fun t ht => ht
  | column =>
    rw [describe]
    split
    · exact h.modifyTable? _ fun t ht =>
        keysAccounted_modifyColumn ht _ fun c hc => hc
    · exact h
  | other => exact h

theorem keysAccounted_apply (statement : Statement)
    (hdefined : statement.definitions ⊆ definitions)
    (h : catalog.Throughout (KeysAccounted definitions)) :
    (statement.apply catalog).Throughout (KeysAccounted definitions) := by
  cases statement with
  | createTable path columns constraints =>
    exact h.addTable (keysAccounted_newTable path constraints hdefined)
  | createView path columns materialized query =>
    exact h.addTable
      (keysAccounted_newView catalog path columns materialized query)
  | alterTable path alterations =>
    refine h.modifyTable? path fun t ht => keysAccounted_foldl ht ?_
    intro alteration hmem table htable
    refine keysAccounted_alteration alteration ?_ htable
    exact fun d hd => hdefined (List.mem_flatMap.2 ⟨alteration, hmem, hd⟩)
  | comment target path text => exact keysAccounted_describe h target path text
  | other => exact h

theorem keysAccounted_run (statements : List Statement)
    (hdefined : statements.flatMap Statement.definitions ⊆ definitions)
    (h : catalog.Throughout (KeysAccounted definitions)) :
    (statements.foldl Statement.apply catalog).Throughout
      (KeysAccounted definitions) := by
  induction statements generalizing catalog with
  | nil => exact h
  | cons statement rest ih =>
    rw [List.flatMap_cons] at hdefined
    exact ih (List.append_subset.1 hdefined).2
      (keysAccounted_apply statement (List.append_subset.1 hdefined).1 h)

end

/-- After any statements, every column of a primary key takes no nulls, unless
it has the type of a column that some statement defines with a `NULL` behind its
`PRIMARY KEY` and no word on nulls after that. Such options, and no others,
define a key that takes nulls. -/
theorem primary_keys_lack_nulls_unless_reopened (dialect : Dialect)
    (statements : List Statement) :
    (∀ table ∈ (statements.foldl Statement.apply (emptyCatalog dialect)).tables,
        ∀ column ∈ table.columns, column.isPrimaryKey = some true →
          column.nullable = some false ∨
            ∃ d ∈ statements.flatMap Statement.definitions,
              d.reopensKey = true ∧ column.dataType = some d.dataType) ∧
      ∀ d : ColumnDefinition, d.reopensKey = true ↔
        d.column.isPrimaryKey = some true ∧ d.column.nullable ≠ some false := by
  refine ⟨?_, reopensKey_iff⟩
  intro table hmem
  have hrun :=
    keysAccounted_run statements (List.Subset.refl _)
      (Catalog.Throughout.empty _ dialect.defaultSchema)
  exact hrun.of_mem_tables hmem

/-- Keys from options in both orders, from a constraint, from a later constraint
on a renamed column and with a new column. -/
def keyedStatements : List Statement :=
  [.createTable "t"
      [{ name := "a", dataType := "INT", options := [.null, .primaryKey] },
        { name := "b", dataType := "INT", options := [.null] },
        { name := "c", dataType := "INT" }] [.primaryKey ["B"]],
    .createView "v" [] false
      (.select { items := [.wildcard], sources := [.table "t" none] }),
    .alterTable "T"
      [.addColumn { name := "d", dataType := "INT",
                    options := [.primaryKey, .null, .notNull] },
        .renameColumn "c" "e", .addConstraint (.primaryKey ["e"])],
    .comment .column "t.a" (some "number")]

/-- No definition reopens its key, and four columns are keys. -/
theorem primary_keys_lack_nulls_keyedStatements :
    ((keyedStatements.foldl Statement.apply
          (emptyCatalog .postgresql)).tables.flatMap
          (·.columns.filter (·.isPrimaryKey = some true))).map (·.name)
        = ["a", "b", "e", "d"] ∧
      ∀ table ∈
          (keyedStatements.foldl Statement.apply
            (emptyCatalog .postgresql)).tables, ∀ column ∈ table.columns,
        column.isPrimaryKey = some true → column.nullable = some false := by
  refine ⟨by decide +kernel, ?_⟩
  intro table htable column hcolumn hkey
  have hnone : ∀ d ∈ keyedStatements.flatMap Statement.definitions,
      d.reopensKey = false := by decide
  rcases (primary_keys_lack_nulls_unless_reopened .postgresql keyedStatements).1
      table htable column hcolumn hkey with
    hnulls | ⟨d, hd, hreopens, -⟩
  · exact hnulls
  · rw [hnone d hd] at hreopens
    cases hreopens

/-- A key that is declared with its option and then reopened, as in
`g INT PRIMARY KEY NULL`, and one of a column that is declared with nulls and
made the key by a constraint. -/
def reopenedStatements : List Statement :=
  [.createTable "t"
      [{ name := "g", dataType := "INT", options := [.primaryKey, .null] }] [],
    .createTable "u" [{ name := "g", dataType := "INT", options := [.null] }]
      [.primaryKey ["g"]]]

/-- The reopened key takes nulls, the other one does not. -/
theorem primary_key_takes_nulls_reopenedStatements :
    (reopenedStatements.foldl Statement.apply
        (emptyCatalog .postgresql)).tables.flatMap
        (fun t => t.columns.map fun c => (t.name, c.isPrimaryKey, c.nullable))
      = [("t", some true, some true), ("u", some true, some false)] := by
  decide +kernel

end Ddl

end QueryAssist
