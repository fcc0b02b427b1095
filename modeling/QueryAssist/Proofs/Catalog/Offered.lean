import QueryAssist.Catalog.Description
import QueryAssist.Proofs.Catalog.Filing
import QueryAssist.Proofs.Ddl.Loading

/-!
# Tables that are offered are known

A catalog is built from an empty one by adding schemas and tables, by changing
the columns or the description of a table, and by setting the default schema or
the way in which tables are shown. In every such catalog a table with a schema
stands under the key of that schema, whatever the default was when it was added
and is now. So the name under which a table is shown stands for a table.
Descriptions and scripts build their catalogs in this way.
-/

namespace QueryAssist

open Text

/-! ## Building a catalog -/

namespace Table

/-- Neither the name nor the schema of a table holds a dot. -/
structure DotFree (table : Table) : Prop where
  name : '.' ∉ table.name.toList
  schema : ∀ schema, table.schema = some schema → '.' ∉ schema.toList

instance (table : Table) : Decidable table.DotFree :=
  decidable_of_iff
    ('.' ∉ table.name.toList ∧ ∀ schema ∈ table.schema, '.' ∉ schema.toList)
    ⟨fun h => ⟨h.1, h.2⟩, fun h => ⟨h.name, h.schema⟩⟩

/-- Schema and name of a table as they are written. -/
def ownName (table : Table) : QualifiedName :=
  { schema := table.schema, name := table.name }

theorem DotFree.of_ownName {table other : Table} (h : table.DotFree)
    (hname : other.ownName = table.ownName) : other.DotFree := by
  obtain ⟨hschema, hname⟩ := QualifiedName.mk.inj hname
  exact ⟨hname ▸ h.name, hschema ▸ h.schema⟩

end Table

/-- The catalogs that are reached from an empty one, where neither the name nor
the schema of a table that is added holds a dot. -/
inductive Catalog.Built : Catalog → Prop
  | empty (defaultSchema : Option String) (showSchemaPrefix : Bool) :
      Built { defaultSchema, showSchemaPrefix }
  | setDefault {catalog : Catalog} (h : Built catalog)
      (defaultSchema : Option String) : Built { catalog with defaultSchema }
  | setPrefix {catalog : Catalog} (h : Built catalog)
      (showSchemaPrefix : Bool) : Built { catalog with showSchemaPrefix }
  | ensureSchema {catalog : Catalog} (h : Built catalog) (name : String) :
      Built (catalog.ensureSchema name)
  | addTable {catalog : Catalog} (h : Built catalog) {table : Table}
      (htable : table.DotFree) : Built (catalog.addTable table)
  /-- A table may be changed in all but its name and schema. -/
  | modifyTable {catalog changed : Catalog} (h : Built catalog) {name : String}
      {f : Table → Table} (hf : ∀ t, (f t).ownName = t.ownName)
      (hchanged : catalog.modifyTable? name f = some changed) : Built changed

/-! ## Where tables stand -/

/-- A table stands under the key of its name and, if it has a schema, under that
of the schema. -/
structure Table.FiledUnder (table : Table) (schemaKey key : String) : Prop where
  name : key = upper table.name
  schema : ∀ schema, table.schema = some schema → schemaKey = upper schema
  dotFree : table.DotFree

theorem Table.FiledUnder.of_ownName {table other : Table}
    {schemaKey key : String} (h : table.FiledUnder schemaKey key)
    (hown : other.ownName = table.ownName) :
    other.FiledUnder schemaKey key := by
  obtain ⟨hschema, hname⟩ := QualifiedName.mk.inj hown
  exact ⟨hname ▸ h.name, hschema ▸ h.schema, h.dotFree.of_ownName hown⟩

namespace Catalog

/-- Keys come once, and every table stands where it should. -/
structure WellFiled (catalog : Catalog) : Prop extends catalog.Keyed where
  filed : ∀ schemaKey key table,
    catalog.filed? schemaKey key = some table → table.FiledUnder schemaKey key

/-- A table with a schema is filed there, whatever the default. -/
theorem filingKey_of_schema (catalog : Catalog) {table : Table}
    {schema : String} (h : table.schema = some schema) :
    catalog.filingKey table = upper schema := by
  rw [filingKey, h]
  rfl

namespace WellFiled

variable {catalog : Catalog}

theorem empty (defaultSchema : Option String) (showSchemaPrefix : Bool) :
    WellFiled { defaultSchema, showSchemaPrefix } where
  schemas := List.nodup_nil
  tables _ := List.nodup_nil
  filed := by
    intro schemaKey key table h
    cases h

theorem ensureSchema (h : catalog.WellFiled) (name : String) :
    (catalog.ensureSchema name).WellFiled where
  toKeyed := h.toKeyed.ensureSchema name
  filed := by
    intro schemaKey key table hentry
    rw [filed?_ensureSchema] at hentry
    exact h.filed schemaKey key table hentry

theorem addTable (h : catalog.WellFiled) {table : Table}
    (htable : table.DotFree) : (catalog.addTable table).WellFiled where
  toKeyed := h.toKeyed.addTable table
  filed := by
    intro schemaKey key other hentry
    rw [filed?_addTable] at hentry
    by_cases hkeys :
      schemaKey = catalog.filingKey table ∧ key = upper table.name
    · rw [if_pos hkeys] at hentry
      obtain rfl := Option.some.inj hentry
      refine ⟨hkeys.2, ?_, htable⟩
      intro schema hschema
      rw [hkeys.1, filingKey_of_schema catalog hschema]
    · rw [if_neg hkeys] at hentry
      exact h.filed schemaKey key other hentry

theorem alterEntry (h : catalog.WellFiled) (schemaKey key : String)
    {f : Table → Table} (hf : ∀ t, (f t).ownName = t.ownName) :
    (catalog.alterEntry schemaKey key f).WellFiled where
  toKeyed := h.toKeyed.alterEntry schemaKey key f
  filed := by
    intro otherSchema other table hentry
    rw [filed?_alterEntry] at hentry
    split at hentry
    · obtain ⟨before, hbefore, rfl⟩ := Option.map_eq_some_iff.1 hentry
      exact (h.filed otherSchema other before hbefore).of_ownName (hf before)
    · exact h.filed otherSchema other table hentry

end WellFiled

theorem Built.wellFiled {catalog : Catalog}
    (h : catalog.Built) : catalog.WellFiled := by
  induction h with
  | empty defaultSchema showSchemaPrefix =>
    exact WellFiled.empty defaultSchema showSchemaPrefix
  -- Neither field is read by the keys.
  | setDefault h defaultSchema ih => exact ⟨⟨ih.schemas, ih.tables⟩, ih.filed⟩
  | setPrefix h showSchemaPrefix ih => exact ⟨⟨ih.schemas, ih.tables⟩, ih.filed⟩
  | ensureSchema h name ih => exact ih.ensureSchema name
  | addTable h htable ih => exact ih.addTable htable
  | modifyTable h hf hchanged ih =>
    obtain ⟨schemaKey, key, rfl⟩ := modifyTable?_eq_some ih.schemas hchanged
    exact ih.alterEntry schemaKey key hf

/-! ## Loading -/

theorem Built.foldl_addTable {catalog : Catalog} (h : catalog.Built)
    {tables : List Table} (htables : ∀ t ∈ tables, t.DotFree) :
    (tables.foldl Catalog.addTable catalog).Built := by
  induction tables generalizing catalog with
  | nil => exact h
  | cons table rest ih =>
    exact ih (h.addTable (htables table List.mem_cons_self)) fun t ht =>
      htables t (List.mem_cons_of_mem table ht)

end Catalog

/-- No name of a schema or table of a description holds a dot. -/
structure Description.DotFree (description : Description) : Prop where
  schemas : ∀ s ∈ description.schemas,
    '.' ∉ s.name.toList ∧ ∀ t ∈ s.tables, t.DotFree
  tables : ∀ t ∈ description.tables, t.DotFree

instance (description : Description) : Decidable description.DotFree :=
  decidable_of_iff
    ((∀ s ∈ description.schemas,
        '.' ∉ s.name.toList ∧ ∀ t ∈ s.tables, t.DotFree) ∧
      ∀ t ∈ description.tables, t.DotFree)
    ⟨fun h => ⟨h.1, h.2⟩, fun h => ⟨h.schemas, h.tables⟩⟩

theorem Description.built_addSchema {catalog : Catalog} (h : catalog.Built)
    {schema : SchemaDescription} (hname : '.' ∉ schema.name.toList)
    (htables : ∀ t ∈ schema.tables, t.DotFree) :
    (addSchema catalog schema).Built := by
  refine (h.ensureSchema schema.name).foldl_addTable ?_
  intro table hmem
  obtain ⟨t, ht, rfl⟩ := List.mem_map.1 hmem
  refine ⟨(htables t ht).name, ?_⟩
  intro name hschema
  obtain rfl := Option.some.inj hschema
  cases hown : t.schema with
  | none => exact hname
  | some own => exact (htables t ht).schema own hown

/-- The catalog of a description is built. -/
theorem Description.built_toCatalog {description : Description}
    (h : description.DotFree) : description.toCatalog.Built := by
  have hschemas : ∀ (schemas : List SchemaDescription) (catalog : Catalog),
      catalog.Built →
        (∀ s ∈ schemas, '.' ∉ s.name.toList ∧ ∀ t ∈ s.tables, t.DotFree) →
        (schemas.foldl addSchema catalog).Built := by
    intro schemas
    induction schemas with
    | nil => intro catalog hcatalog _; exact hcatalog
    | cons schema rest ih =>
      intro catalog hcatalog hall
      obtain ⟨hname, htables⟩ := hall schema List.mem_cons_self
      exact ih _ (built_addSchema hcatalog hname htables) fun s hs =>
        hall s (List.mem_cons_of_mem schema hs)
  exact (hschemas _ _ (.empty _ _) h.schemas).foldl_addTable h.tables

namespace Ddl

theorem ownName_foldl {α : Type} {step : Table → α → Table}
    (hstep : ∀ t a, (step t a).ownName = t.ownName) (table : Table)
    (items : List α) : (items.foldl step table).ownName = table.ownName := by
  induction items generalizing table with
  | nil => rfl
  | cons a rest ih => rw [List.foldl_cons, ih, hstep]

theorem ownName_constraint (table : Table) (constraint : TableConstraint) :
    (constraint.apply table).ownName = table.ownName := by
  cases constraint with
  | primaryKey columns =>
    apply ownName_foldl
    intro t name
    rfl
  | other => rfl

theorem ownName_alteration (table : Table) (alteration : Alteration) :
    (alteration.apply table).ownName = table.ownName := by
  cases alteration with
  | addConstraint constraint => exact ownName_constraint table constraint
  | addColumn => rfl
  | dropColumn => rfl
  | renameColumn => rfl
  | other => rfl

/-- The parts of a path that a table is created under hold no dot. -/
theorem dotFree_tableAt (path kind : String) : (tableAt path kind).DotFree := by
  refine ⟨dot_notMem_lastSegment path, ?_⟩
  intro schema hschema
  obtain ⟨qualifier, -, rfl⟩ := Option.map_eq_some_iff.1 hschema
  exact dot_notMem_lastSegment qualifier

theorem built_getD {catalog : Catalog} (h : catalog.Built) {name : String}
    {f : Table → Table} (hf : ∀ t, (f t).ownName = t.ownName) :
    ((catalog.modifyTable? name f).getD catalog).Built := by
  cases hchanged : catalog.modifyTable? name f with
  | none => exact h
  | some changed => exact h.modifyTable hf hchanged

theorem built_describe {catalog : Catalog} (h : catalog.Built)
    (target : CommentTarget) (path : String) (text : Option String) :
    (describe catalog target path text).Built := by
  cases target with
  | table => exact built_getD h fun _ => rfl
  | column =>
    rw [describe]
    split
    · exact built_getD h fun _ => rfl
    · exact h
  | other => exact h

theorem built_apply {catalog : Catalog} (h : catalog.Built)
    (statement : Statement) : (statement.apply catalog).Built := by
  cases statement with
  | createTable path columns constraints =>
    have hname : (newTable path columns constraints).ownName
        = (tableAt path "table").ownName :=
      ownName_foldl ownName_constraint _ constraints
    exact h.addTable ((dotFree_tableAt path "table").of_ownName hname)
  | createView path columns materialized query =>
    exact h.addTable
      ((dotFree_tableAt path
        (if materialized then "materialized view" else "view")).of_ownName rfl)
  | alterTable path alterations =>
    exact built_getD h fun t => ownName_foldl ownName_alteration t alterations
  | comment target path text => exact built_describe h target path text
  | other => exact h

theorem built_foldl {catalog : Catalog} (h : catalog.Built)
    (statements : List Statement) :
    (statements.foldl Statement.apply catalog).Built := by
  induction statements generalizing catalog with
  | nil => exact h
  | cons statement rest ih => exact ih (built_apply h statement)

/-- Loading a script goes on building the catalog, whatever the paths in its
statements. -/
theorem built_load {read : StatementReader} {catalog changed : Catalog}
    {script : Text} {count : Nat} (h : catalog.Built)
    (hload : load read catalog script = some (count, changed)) :
    changed.Built := by
  obtain ⟨_, -, hresult⟩ := Option.map_eq_some_iff.1 hload
  obtain ⟨-, rfl⟩ := Prod.mk.inj hresult
  rw [catalog_loadInto]
  exact built_foldl h _

end Ddl

/-! ## Tables by the names that are shown -/

namespace Catalog

variable {catalog : Catalog} {table : Table}

/-- Behind its schema the name of a table stands for that table. -/
theorem WellFiled.table?_own (h : catalog.WellFiled)
    (hmem : table ∈ catalog.tables) {schema : String}
    (hschema : table.schema = some schema) :
    catalog.table? (schema ++ "." ++ table.name) = some table := by
  obtain ⟨schemaKey, key, hentry⟩ := exists_filed?_of_mem_tables h.toKeyed hmem
  have hfiled := h.filed schemaKey key table hentry
  rw [table?_qualified catalog (hfiled.dotFree.schema schema hschema)
      hfiled.dotFree.name, ← hfiled.schema schema hschema, ← hfiled.name]
  exact hentry

theorem WellFiled.hasTable_name (h : catalog.WellFiled)
    (hmem : table ∈ catalog.tables) : catalog.hasTable table.name = true := by
  obtain ⟨schemaKey, key, hentry⟩ := exists_filed?_of_mem_tables h.toKeyed hmem
  have hfiled := h.filed schemaKey key table hentry
  rw [hfiled.name] at hentry
  exact hasTable_of_filed? h.toKeyed hfiled.dotFree.name hentry

end Catalog

/-- In every catalog that is built, the name under which a table is shown stands
for a table, and the name behind its schema stands for the table itself. -/
theorem offered_tables_are_known (catalog : Catalog) (h : catalog.Built) :
    ∀ table ∈ catalog.tables,
      catalog.hasTable (catalog.displayName table) = true ∧
        ∀ schema, table.schema = some schema → schema ≠ "" →
          catalog.table? (schema ++ "." ++ table.name) = some table := by
  intro table hmem
  have hown : ∀ schema, table.schema = some schema →
      catalog.table? (schema ++ "." ++ table.name) = some table :=
    fun schema hschema => h.wellFiled.table?_own hmem hschema
  have hbare := h.wellFiled.hasTable_name hmem
  refine ⟨?_, fun schema hschema _ => hown schema hschema⟩
  rw [Catalog.displayName]
  split
  · rw [Table.qualifiedName]
    split
    · rename_i schema hschema
      split
      · exact hbare
      · rw [Catalog.hasTable, hown schema hschema]
        rfl
    · exact hbare
  · exact hbare

/-- A table without a schema and one that names its schema, in a description
with a default schema. -/
def staffDescription : Description :=
  { schemas := [{ name := "Crm", tables := [{ name := "emp" }] }]
    tables := [{ name := "emp" }, { name := "Emp", schema := some "hr" }]
    defaultSchema := some "main"
    showSchemaPrefix := true }

/-- A script that creates one of these tables again and a new one, and
describes a third. -/
def restaffingScript : Text :=
  ("CREATE TABLE crm.EMP (no INT); CREATE TABLE log (at DATE); "
    ++ "COMMENT ON TABLE hr.emp IS 'staff'").toList

/-- The script can be read as a whole, as these statements. -/
def restaffingReader : Ddl.StatementReader :=
  Ddl.readerOf
    [(restaffingScript,
      [.createTable "crm.EMP" [{ name := "no", dataType := "INT" }] [],
        .createTable "log" [{ name := "at", dataType := "DATE" }] [],
        .comment .table "hr.emp" (some "staff")])]

/-- The catalog of the description, with another default schema. -/
def staffedCatalog : Catalog :=
  { staffDescription.toCatalog with defaultSchema := some "HR" }

/-- The description and then, with another default schema, the script. -/
theorem offered_tables_are_known_restaffingScript :
    ∃ count catalog,
      Ddl.load restaffingReader staffedCatalog restaffingScript
          = some (count, catalog) ∧
        catalog.Built ∧
        catalog.tables.map catalog.displayName
          = ["crm.EMP", "emp", "hr.Emp", "log"] ∧
        ∀ table ∈ catalog.tables,
          catalog.hasTable (catalog.displayName table) = true ∧
            ∀ schema, table.schema = some schema → schema ≠ "" →
              catalog.table? (schema ++ "." ++ table.name) = some table := by
  have hdescription : staffDescription.DotFree := by decide
  have hshown : (Ddl.load restaffingReader staffedCatalog restaffingScript).map
      (fun loaded => loaded.2.tables.map loaded.2.displayName)
        = some ["crm.EMP", "emp", "hr.Emp", "log"] := by decide +kernel
  obtain ⟨⟨count, catalog⟩, hload, hnames⟩ := Option.map_eq_some_iff.1 hshown
  have hbuilt : catalog.Built :=
    Ddl.built_load
      ((Description.built_toCatalog hdescription).setDefault (some "HR")) hload
  exact ⟨count, catalog, hload, hbuilt, hnames,
    offered_tables_are_known catalog hbuilt⟩

end QueryAssist
