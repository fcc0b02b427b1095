import QueryAssist.Proofs.Catalog.Filing

/-!
# The table that a name reads and changes

A name is resolved once to read a table and once to change one, by two searches
of their own. Both come to the same place. A place is a slot: a catalog with one
table left out. The name reads whatever table is put into the slot, and a change
by that name puts the changed table there and leaves all else as it was.
-/

namespace QueryAssist

open Text

/-! ## Entries with one value left out -/

namespace Entries

variable {α : Type}

theorem get?_append (first second : Entries α) (key : String) :
    get? (first ++ second) key = (first.get? key).or (second.get? key) := by
  induction first with
  | nil => rfl
  | cons e rest ih =>
    obtain ⟨k, v⟩ := e
    rw [List.cons_append, get?_cons, get?_cons, ih]
    split <;> rfl

/-- A value that is found stands behind entries of other keys. -/
theorem exists_split {entries : Entries α} {key : String} {value : α}
    (h : entries.get? key = some value) :
    ∃ before after : Entries α,
      entries = before ++ (key, value) :: after ∧ before.get? key = none := by
  induction entries with
  | nil => cases h
  | cons e rest ih =>
    obtain ⟨k, v⟩ := e
    rw [get?_cons] at h
    split at h
    · rename_i hk
      cases h
      exact ⟨[], rest, by rw [hk]; rfl, rfl⟩
    · rename_i hk
      obtain ⟨before, after, rfl, hbefore⟩ := ih h
      exact ⟨(k, v) :: before, after, rfl,
        by rw [get?_cons, if_neg hk, hbefore]⟩

section

variable {before : Entries α} {key : String} (h : before.get? key = none)
  (value : α) (after : Entries α)

include h

theorem get?_split :
    get? (before ++ (key, value) :: after) key = some value := by
  rw [get?_append, h, get?_cons, if_pos rfl]
  rfl

theorem modify_split (f : α → α) :
    modify f (before ++ (key, value) :: after) key
      = before ++ (key, f value) :: after := by
  induction before with
  | nil => simp [modify]
  | cons e rest ih =>
    obtain ⟨k, v⟩ := e
    rw [get?_cons] at h
    split at h
    · cases h
    · rename_i hk
      rw [List.cons_append, modify, if_neg hk, ih h]
      rfl

end

/-- A key reads the value in one place whatever it is, or something that does
not depend on it. -/
theorem get?_split_cases (before after : Entries α) (place key : String) :
    (key = place ∧
        ∀ value, get? (before ++ (place, value) :: after) key = some value) ∨
      ∃ found,
        ∀ value, get? (before ++ (place, value) :: after) key = found := by
  cases hbefore : before.get? key with
  | some found =>
    exact Or.inr ⟨some found, fun value => by rw [get?_append, hbefore]; rfl⟩
  | none =>
    by_cases hkey : key = place
    · subst hkey
      exact Or.inl ⟨rfl, fun value => get?_split hbefore value after⟩
    · refine Or.inr ⟨get? after key, fun value => ?_⟩
      rw [get?_append, hbefore, get?_cons, if_neg (Ne.symm hkey)]
      rfl

end Entries

/-! ## Slots -/

/-- A catalog with one table left out. -/
structure TableSlot where
  schemasBefore : Entries Schema
  schemaKey : String
  schemaName : String
  tablesBefore : Entries Table
  tableKey : String
  tablesAfter : Entries Table
  schemasAfter : Entries Schema
  defaultSchema : Option String
  showSchemaPrefix : Bool

/-- The same keys in the same order, the same names and settings, and the same
tables under all keys but two given ones. -/
structure Catalog.SameBut (schemaKey tableKey : String)
    (catalog changed : Catalog) : Prop where
  schemaKeys : changed.schemas.keys = catalog.schemas.keys
  schemaNames : changed.schemas.values.map Schema.name
    = catalog.schemas.values.map Schema.name
  tableKeys : ∀ key, changed.tableKeys key = catalog.tableKeys key
  defaultSchema : changed.defaultSchema = catalog.defaultSchema
  showSchemaPrefix : changed.showSchemaPrefix = catalog.showSchemaPrefix
  others : ∀ otherSchema other, (otherSchema, other) ≠ (schemaKey, tableKey) →
    changed.filed? otherSchema other = catalog.filed? otherSchema other

namespace TableSlot

/-- The schema of a slot with a table in it. -/
def schema (slot : TableSlot) (table : Table) : Schema :=
  { name := slot.schemaName,
    tables := slot.tablesBefore ++ (slot.tableKey, table) :: slot.tablesAfter }

/-- The catalog of a slot with a table in it. -/
def filled (slot : TableSlot) (table : Table) : Catalog :=
  { schemas :=
      slot.schemasBefore
        ++ (slot.schemaKey, slot.schema table) :: slot.schemasAfter
    defaultSchema := slot.defaultSchema
    showSchemaPrefix := slot.showSchemaPrefix }

variable (slot : TableSlot)

theorem filled_defaultSchema (table : Table) :
    (slot.filled table).defaultSchema = slot.defaultSchema := rfl

/-- Two keys read the slot, or something that does not depend on
what is in it. -/
theorem filed?_filled_cases (schemaKey key : String) :
    ((schemaKey, key) = (slot.schemaKey, slot.tableKey) ∧
        ∀ table, (slot.filled table).filed? schemaKey key = some table) ∨
      ∃ found, ∀ table, (slot.filled table).filed? schemaKey key = found := by
  rcases Entries.get?_split_cases slot.schemasBefore slot.schemasAfter
      slot.schemaKey schemaKey with
    ⟨rfl, hschema⟩ | ⟨found, hfound⟩
  · have hread : ∀ table,
        (slot.filled table).filed? slot.schemaKey key
          = (slot.schema table).tables.get? key := by
      intro table
      rw [Catalog.filed?, filled, hschema]
      rfl
    rcases Entries.get?_split_cases slot.tablesBefore slot.tablesAfter
        slot.tableKey key with ⟨rfl, htable⟩ | ⟨found, hfound⟩
    · exact Or.inl ⟨rfl, fun table => (hread table).trans (htable table)⟩
    · exact Or.inr ⟨found, fun table => (hread table).trans (hfound table)⟩
  · exact Or.inr
      ⟨found.bind (·.tables.get? key),
        fun table => by rw [Catalog.filed?, filled, hfound]⟩

/-- Whether two keys have a table does not depend on the one in the slot. -/
theorem filed?_filled_eq_none {schemaKey key : String} {table : Table}
    (h : (slot.filled table).filed? schemaKey key = none) (other : Table) :
    (slot.filled other).filed? schemaKey key = none := by
  rcases slot.filed?_filled_cases schemaKey key
    with ⟨-, hread⟩ | ⟨found, hfound⟩
  · rw [hread] at h
    cases h
  · rw [hfound, ← hfound table, h]

theorem keys_schema (table other : Table) :
    (slot.schema table).tables.keys = (slot.schema other).tables.keys := by
  simp [schema, Entries.keys]

/-- Catalogs that differ in one slot differ nowhere else. -/
theorem sameBut_filled (table other : Table) :
    Catalog.SameBut slot.schemaKey slot.tableKey (slot.filled table)
      (slot.filled other) where
  schemaKeys := by simp [filled, Entries.keys]
  schemaNames := by simp [filled, Entries.values, schema]
  tableKeys key := by
    rw [Catalog.tableKeys, Catalog.tableKeys, filled, filled]
    rcases Entries.get?_split_cases slot.schemasBefore slot.schemasAfter
        slot.schemaKey key with ⟨-, hread⟩ | ⟨found, hfound⟩
    · rw [hread, hread, Option.map_some, Option.map_some,
        slot.keys_schema other table]
    · rw [hfound, hfound]
  defaultSchema := rfl
  showSchemaPrefix := rfl
  others := by
    intro otherSchema key hne
    rcases slot.filed?_filled_cases otherSchema key
      with ⟨heq, -⟩ | ⟨found, hfound⟩
    · exact absurd heq hne
    · rw [hfound, hfound]

/-- Where no key comes twice, the keys of a slot read the table in it. -/
theorem filed?_filled {table : Table} (h : (slot.filled table).Keyed) :
    (slot.filled table).filed? slot.schemaKey slot.tableKey = some table := by
  have hschema : (slot.filled table).schemas.get? slot.schemaKey
      = some (slot.schema table) :=
    Entries.get?_of_mem h.schemas (by simp [filled])
  have hkeys := h.tables slot.schemaKey
  rw [Catalog.tableKeys, hschema] at hkeys
  rw [Catalog.filed?, hschema]
  exact Entries.get?_of_mem hkeys (by simp [schema])

/-! ## Searches that end in a slot -/

section

variable {slot : TableSlot}
  (htables : slot.tablesBefore.get? slot.tableKey = none)

include htables

theorem get?_schema (table : Table) :
    (slot.schema table).tables.get? slot.tableKey = some table :=
  Entries.get?_split htables table slot.tablesAfter

theorem modifyTable_schema (table : Table) (f : Table → Table) :
    (slot.schema table).modifyTable slot.tableKey f
      = slot.schema (f table) := by
  rw [Schema.modifyTable, schema, Entries.modify_split htables]
  rfl

/-- The search in one schema, where the slot is the first place
with its keys. -/
theorem search_in_schema
    (hschemas : slot.schemasBefore.get? slot.schemaKey = none) (table : Table) :
    (slot.filled table).filed? slot.schemaKey slot.tableKey = some table ∧
      ∀ f,
        Catalog.modifyIn slot.schemaKey slot.tableKey f
            (slot.filled table).schemas
          = some (slot.filled (f table)).schemas := by
  have hschema : (slot.filled table).schemas.get? slot.schemaKey
      = some (slot.schema table) :=
    Entries.get?_split hschemas (slot.schema table) slot.schemasAfter
  refine ⟨?_, fun f => ?_⟩
  · rw [Catalog.filed?, hschema, Option.bind_some, get?_schema htables]
  · rw [Catalog.modifyIn, hschema]
    simp only [Entries.has, get?_schema htables, Option.isSome_some, if_true]
    rw [filled, Entries.modify_split hschemas, modifyTable_schema htables]
    rfl

/-- The search through all schemas, where none before that of the slot has
such a table. -/
theorem search_in_order
    (hschemas :
      slot.schemasBefore.values.findSome? (·.tables.get? slot.tableKey) = none)
    (table : Table) :
    (slot.filled table).schemas.values.findSome? (·.tables.get? slot.tableKey)
        = some table ∧
      ∀ f,
        Catalog.modifyInFirst slot.tableKey f (slot.filled table).schemas
          = some (slot.filled (f table)).schemas := by
  refine ⟨?_, fun f => ?_⟩
  · rw [filled, Entries.values, List.map_append, List.findSome?_append]
    rw [Entries.values] at hschemas
    rw [hschemas, List.map_cons, List.findSome?_cons, get?_schema htables]
    rfl
  · rw [filled, filled]
    generalize slot.schemasBefore = before at hschemas
    induction before with
    | nil =>
      simp [Catalog.modifyInFirst, Entries.has, get?_schema htables,
        modifyTable_schema htables]
    | cons e rest ih =>
      obtain ⟨k, first⟩ := e
      rw [Entries.values, List.map_cons, List.findSome?_cons] at hschemas
      cases hfirst : first.tables.get? slot.tableKey with
      | some other =>
        rw [hfirst] at hschemas
        cases hschemas
      | none =>
        rw [hfirst] at hschemas
        simp [Catalog.modifyInFirst, Entries.has, hfirst, ih hschemas]

end

end TableSlot

namespace Catalog

variable {catalog : Catalog}

/-- A table of a schema stands in a slot, as the first of its key in
the schema. -/
theorem exists_slot {schemasBefore schemasAfter : Entries Schema}
    {schemaKey key : String} {schema : Schema} {table : Table}
    (hschemas :
      catalog.schemas = schemasBefore ++ (schemaKey, schema) :: schemasAfter)
    (htable : schema.tables.get? key = some table) :
    ∃ slot : TableSlot, slot.filled table = catalog ∧
      slot.schemasBefore = schemasBefore ∧ slot.schemaKey = schemaKey ∧
      slot.tableKey = key ∧ slot.tablesBefore.get? slot.tableKey = none := by
  obtain ⟨tablesBefore, tablesAfter, htables, hnone⟩ :=
    Entries.exists_split htable
  refine ⟨{ schemasBefore, schemaKey, schemaName := schema.name, tablesBefore,
            tableKey := key, tablesAfter, schemasAfter,
            defaultSchema := catalog.defaultSchema,
              showSchemaPrefix := catalog.showSchemaPrefix },
    ?_, rfl, rfl, rfl, hnone⟩
  rw [TableSlot.filled, TableSlot.schema, ← htables, ← hschemas]

/-- The table under two keys stands in a slot that a search in the
schema comes to. -/
theorem exists_slot_in_schema {schemaKey key : String} {table : Table}
    (h : catalog.filed? schemaKey key = some table) :
    ∃ slot : TableSlot, slot.filled table = catalog ∧
      ∀ other, (slot.filled other).filed? schemaKey key = some other ∧
        ∀ f,
          modifyIn schemaKey key f (slot.filled other).schemas
            = some (slot.filled (f other)).schemas := by
  obtain ⟨schema, hschema, htable⟩ := Option.bind_eq_some_iff.1 h
  obtain ⟨before, after, hschemas, hnone⟩ := Entries.exists_split hschema
  obtain ⟨slot, hslot, rfl, rfl, rfl, htables⟩ := exists_slot hschemas htable
  exact ⟨slot, hslot, TableSlot.search_in_schema htables hnone⟩

/-- The first table of a key in any schema stands in a slot that a search
through all schemas comes to. -/
theorem exists_slot_in_order {key : String} {table : Table}
    (h : catalog.schemas.values.findSome? (·.tables.get? key) = some table) :
    ∃ slot : TableSlot, slot.filled table = catalog ∧
      ∀ other,
        (slot.filled other).schemas.values.findSome? (·.tables.get? key)
            = some other ∧
          ∀ f,
            modifyInFirst key f (slot.filled other).schemas
              = some (slot.filled (f other)).schemas := by
  rw [Entries.values, List.findSome?_map, List.findSome?_eq_some_iff] at h
  obtain ⟨before, ⟨schemaKey, schema⟩, after, hschemas, htable, hnone⟩ := h
  obtain ⟨slot, hslot, rfl, -, rfl, htables⟩ := exists_slot hschemas htable
  have hbefore : slot.schemasBefore.values.findSome?
        (·.tables.get? slot.tableKey) = none := by
    rw [Entries.values, List.findSome?_map, List.findSome?_eq_none_iff]
    exact hnone
  exact ⟨slot, hslot, TableSlot.search_in_order htables hbefore⟩

/-! ## Names -/

section

variable {name : String}

theorem table?_of_schema {schema : String}
    (h : (QualifiedName.parse name).schema = some schema) :
    catalog.table? name
      = catalog.filed? (upper schema)
        (upper (QualifiedName.parse name).name) := by
  rw [table?, h]
  rfl

theorem table?_of_bare (h : (QualifiedName.parse name).schema = none) :
    catalog.table? name
      = (catalog.defaultSchema.bind fun schema =>
        catalog.filed? (upper schema)
          (upper (QualifiedName.parse name).name)).or
        (catalog.schemas.values.findSome?
          (·.tables.get? (upper (QualifiedName.parse name).name))) := by
  rw [table?, h]
  simp only [Option.orElse_eq_orElse, Option.orElse_eq_or]
  cases catalog.defaultSchema <;> rfl

theorem modifyTable?_of_schema {schema : String}
    (h : (QualifiedName.parse name).schema = some schema) (f : Table → Table) :
    catalog.modifyTable? name f
      = (modifyIn (upper schema) (upper (QualifiedName.parse name).name) f
        catalog.schemas).map fun schemas => { catalog with schemas } := by
  rw [modifyTable?, h]

theorem modifyTable?_of_bare (h : (QualifiedName.parse name).schema = none)
    (f : Table → Table) :
    catalog.modifyTable? name f = ((catalog.defaultSchema.bind fun schema =>
            modifyIn (upper schema) (upper (QualifiedName.parse name).name) f
              catalog.schemas).or
          (modifyInFirst (upper (QualifiedName.parse name).name) f
            catalog.schemas)).map
          fun schemas => { catalog with schemas } := by
  rw [modifyTable?, h]
  simp only [Option.orElse_eq_orElse, Option.orElse_eq_or]

end

theorem modifyIn_eq_none {schemaKey key : String}
    (h : catalog.filed? schemaKey key = none) (f : Table → Table) :
    modifyIn schemaKey key f catalog.schemas = none := by
  rw [filed?] at h
  rw [modifyIn]
  cases hschema : catalog.schemas.get? schemaKey with
  | none => rfl
  | some schema =>
    rw [hschema, Option.bind_some] at h
    simp [Entries.has, h]

theorem modifyInFirst_eq_none {key : String} {schemas : Entries Schema}
    (h : schemas.values.findSome? (·.tables.get? key) = none)
    (f : Table → Table) : modifyInFirst key f schemas = none := by
  induction schemas with
  | nil => rfl
  | cons e rest ih =>
    obtain ⟨k, schema⟩ := e
    rw [Entries.values, List.findSome?_map, List.findSome?_eq_none_iff,
      List.forall_mem_cons] at h
    have hrest : modifyInFirst key f rest = none := ih (by
      rw [Entries.values, List.findSome?_map, List.findSome?_eq_none_iff]
      exact h.2)
    have hfirst : schema.tables.get? key = none := h.1
    simp [modifyInFirst, Entries.has, hfirst, hrest]

/-- A name that reads no table changes none. -/
theorem modifyTable?_eq_none {name : String} (h : catalog.table? name = none)
    (f : Table → Table) : catalog.modifyTable? name f = none := by
  cases hschema : (QualifiedName.parse name).schema with
  | some schema =>
    rw [table?_of_schema hschema] at h
    rw [modifyTable?_of_schema hschema, modifyIn_eq_none h]
    rfl
  | none =>
    rw [table?_of_bare hschema, Option.or_eq_none_iff] at h
    obtain ⟨hdefault, hfirst⟩ := h
    rw [modifyTable?_of_bare hschema, modifyInFirst_eq_none hfirst,
      Option.or_none]
    cases hd : catalog.defaultSchema with
    | none => rfl
    | some schema =>
      rw [hd, Option.bind_some] at hdefault
      rw [Option.bind_some, modifyIn_eq_none hdefault]
      rfl

end Catalog

/-! ## Slots by name -/

/-- Whatever table stands in the slot, the name reads it, and a change by that
name changes it. -/
structure TableSlot.DesignatedBy (slot : TableSlot) (name : String) : Prop where
  read : ∀ table, (slot.filled table).table? name = some table
  change : ∀ table f,
    (slot.filled table).modifyTable? name f = some (slot.filled (f table))

namespace Catalog

variable {catalog : Catalog} {name : String}

/-- A name with a schema designates a slot of that schema. -/
theorem designated_of_schema {schema : String} {table : Table}
    (hschema : (QualifiedName.parse name).schema = some schema)
    (h : catalog.filed? (upper schema) (upper (QualifiedName.parse name).name)
      = some table) :
    ∃ slot : TableSlot,
      slot.filled table = catalog ∧ slot.DesignatedBy name := by
  obtain ⟨slot, hslot, hsearch⟩ := exists_slot_in_schema h
  refine ⟨slot, hslot, fun other => ?_, fun other f => ?_⟩
  · rw [table?_of_schema hschema, (hsearch other).1]
  · rw [modifyTable?_of_schema hschema, (hsearch other).2 f]
    rfl

/-- A bare name designates a slot of the default schema, if that has
such a table. -/
theorem designated_of_default {schema : String} {table : Table}
    (hbare : (QualifiedName.parse name).schema = none)
    (hdefault : catalog.defaultSchema = some schema)
    (h : catalog.filed? (upper schema) (upper (QualifiedName.parse name).name)
      = some table) :
    ∃ slot : TableSlot,
      slot.filled table = catalog ∧ slot.DesignatedBy name := by
  obtain ⟨slot, rfl, hsearch⟩ := exists_slot_in_schema h
  have hschema : slot.defaultSchema = some schema := hdefault
  refine ⟨slot, rfl, fun other => ?_, fun other f => ?_⟩
  · rw [table?_of_bare hbare, TableSlot.filled_defaultSchema, hschema,
      Option.bind_some, (hsearch other).1, Option.some_or]
  · rw [modifyTable?_of_bare hbare, TableSlot.filled_defaultSchema, hschema,
      Option.bind_some, (hsearch other).2 f, Option.some_or, ← hschema]
    rfl

/-- Any other bare name designates a slot of the first schema that has
such a table. -/
theorem designated_of_first {table : Table}
    (hbare : (QualifiedName.parse name).schema = none)
    (hdefault : (catalog.defaultSchema.bind fun schema =>
      catalog.filed? (upper schema) (upper (QualifiedName.parse name).name))
        = none)
    (h : catalog.schemas.values.findSome?
        (·.tables.get? (upper (QualifiedName.parse name).name))
      = some table) :
    ∃ slot : TableSlot,
      slot.filled table = catalog ∧ slot.DesignatedBy name := by
  obtain ⟨slot, rfl, hsearch⟩ := exists_slot_in_order h
  -- The default schema has no such table, whatever stands in the slot.
  have hmiss : ∀ other, ∀ schema ∈ slot.defaultSchema,
      (slot.filled other).filed? (upper schema)
          (upper (QualifiedName.parse name).name) = none := by
    intro other schema hschema
    exact slot.filed?_filled_eq_none
      (Option.bind_eq_none_iff.1 hdefault schema hschema) other
  refine ⟨slot, rfl, fun other => ?_, fun other f => ?_⟩
  · rw [table?_of_bare hbare, TableSlot.filled_defaultSchema,
      Option.bind_eq_none_iff.2 (hmiss other), Option.none_or,
      (hsearch other).1]
  · have hchange : ∀ schema ∈ slot.defaultSchema,
        modifyIn (upper schema) (upper (QualifiedName.parse name).name) f
            (slot.filled other).schemas = none :=
      fun schema hschema => modifyIn_eq_none (hmiss other schema hschema) f
    rw [modifyTable?_of_bare hbare, TableSlot.filled_defaultSchema,
      Option.bind_eq_none_iff.2 hchange, Option.none_or, (hsearch other).2 f]
    rfl

/-- A table that a name reads stands in a slot that the name designates. -/
theorem exists_designated {table : Table}
    (h : catalog.table? name = some table) :
    ∃ slot : TableSlot,
      slot.filled table = catalog ∧ slot.DesignatedBy name := by
  cases hschema : (QualifiedName.parse name).schema with
  | some schema =>
    exact designated_of_schema hschema (table?_of_schema hschema ▸ h)
  | none =>
    rw [table?_of_bare hschema, Option.or_eq_some_iff] at h
    rcases h with hdefault | ⟨hdefault, hfirst⟩
    · obtain ⟨schema, hd, hfiled⟩ := Option.bind_eq_some_iff.1 hdefault
      exact designated_of_default hschema hd hfiled
    · exact designated_of_first hschema hdefault hfirst

end Catalog

/-- A name reads no table and changes none, or there is one slot that it reads
and changes: the name stands for whatever table is in the slot, and a change by
that name puts the changed table there. All keys and their order, the names of
the schemas, the default schema and every table under other keys stay as they
are. Where no key comes twice, the two keys of the slot read the table in it. -/
theorem names_read_what_they_change (catalog : Catalog) (name : String) :
    (catalog.table? name = none ∧ ∀ f, catalog.modifyTable? name f = none) ∨
      ∃ (slot : TableSlot) (table : Table), catalog = slot.filled table ∧
        (∀ other, (slot.filled other).table? name = some other) ∧
        (∀ other f,
          (slot.filled other).modifyTable? name f
            = some (slot.filled (f other))) ∧
        (∀ other,
          Catalog.SameBut slot.schemaKey slot.tableKey catalog
            (slot.filled other)) ∧
        (catalog.Keyed →
          ∀ other,
            (slot.filled other).filed? slot.schemaKey slot.tableKey
              = some other) := by
  cases hread : catalog.table? name with
  | none => exact Or.inl ⟨rfl, Catalog.modifyTable?_eq_none hread⟩
  | some table =>
    obtain ⟨slot, rfl, hslot⟩ := Catalog.exists_designated hread
    refine Or.inr
      ⟨slot, table, rfl, hslot.read, hslot.change, slot.sameBut_filled table,
        ?_⟩
    intro hkeyed other
    have hsame := slot.sameBut_filled table other
    refine slot.filed?_filled
      ⟨hsame.schemaKeys ▸ hkeyed.schemas, fun schemaKey => ?_⟩
    exact hsame.tableKeys schemaKey ▸ hkeyed.tables schemaKey

/-- One name in three schemas, where the default schema is spelt in other
letters and stands last. -/
def sharedNameCatalog : Catalog :=
  { Catalog.ofTables
      [{ name := "emp", schema := some "crm" },
        { name := "log", schema := some "hr" },
        { name := "Emp", schema := some "hr", columns := [{ name := "no" }] }]
    with defaultSchema := some "Hr" }

/-- A bare name is read and changed in the default schema, though another schema
has the name first. -/
theorem names_read_what_they_change_sharedNameCatalog :
    sharedNameCatalog.Keyed ∧
      ∃ changed,
        sharedNameCatalog.modifyTable? "EMP"
              (·.modifyColumn "NO" fun c => { c with name := "id" })
            = some changed ∧
          changed.table? "EMP"
            = some { name := "Emp", schema := some "hr",
                     columns := [{ name := "id" }] } ∧
          changed.filed? "CRM" "EMP" = sharedNameCatalog.filed? "CRM" "EMP" ∧
          changed.schemas.keys = ["CRM", "HR"] ∧
          changed.tableKeys "HR" = ["LOG", "EMP"] := by
  have hkeyed : sharedNameCatalog.Keyed := by
    have hempty : Catalog.Keyed {} := ⟨List.nodup_nil, fun _ => List.nodup_nil⟩
    have hadded :=
      ((hempty.addTable { name := "emp", schema := some "crm" }).addTable
        { name := "log", schema := some "hr" }).addTable
        { name := "Emp", schema := some "hr", columns := [{ name := "no" }] }
    exact ⟨hadded.schemas, hadded.tables⟩
  have hfound : sharedNameCatalog.table? "EMP"
      = some { name := "Emp", schema := some "hr",
               columns := [{ name := "no" }] } := by
    decide +kernel
  refine ⟨hkeyed, ?_⟩
  rcases names_read_what_they_change sharedNameCatalog "EMP"
    with ⟨hnone, -⟩ | ⟨slot, table, hslot, hread, hchange, hsame, hfiled⟩
  · rw [hnone] at hfound
    cases hfound
  · have htable := hread table
    rw [← hslot, hfound] at htable
    obtain rfl := Option.some.inj htable
    have hother : ("CRM", "EMP") ≠ (slot.schemaKey, slot.tableKey) := by
      intro heq
      have hplace :=
        hfiled hkeyed
          { name := "Emp", schema := some "hr", columns := [{ name := "no" }] }
      rw [← hslot, ← (Prod.mk.inj heq).1, ← (Prod.mk.inj heq).2] at hplace
      revert hplace
      decide +kernel
    refine ⟨_, by rw [hslot]; exact hchange _ _, hread _,
      (hsame _).others _ _ hother, ?_, ?_⟩
    · rw [(hsame _).schemaKeys]
      decide +kernel
    · rw [(hsame _).tableKeys]
      decide +kernel

end QueryAssist
