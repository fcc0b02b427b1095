import Mathlib.Data.List.Nodup
import QueryAssist.Catalog.Basic

/-!
# How tables are filed

A catalog read by its keys: the keys of its schemas, the keys of the tables of
each, and the table under two keys. Every change of a catalog is described by
what it does to these, and where no key comes twice they give back the list of
tables and every lookup.
-/

namespace QueryAssist

open Text

namespace Catalog

/-! ## Reading by keys -/

/-- The table under the key of a schema and its own. -/
def filed? (catalog : Catalog) (schemaKey key : String) : Option Table :=
  (catalog.schemas.get? schemaKey).bind (·.tables.get? key)

/-- The keys of the tables of a schema; none if there is no such schema. -/
def tableKeys (catalog : Catalog) (schemaKey : String) : List String :=
  ((catalog.schemas.get? schemaKey).map (·.tables.keys)).getD []

/-- No schema and no table of a schema comes twice. -/
structure Keyed (catalog : Catalog) : Prop where
  schemas : catalog.schemas.keys.Nodup
  tables : ∀ schemaKey, (catalog.tableKeys schemaKey).Nodup

section

variable {catalog : Catalog}

/-- What a name in a schema stands for is filed under the upper-case
forms of both. -/
theorem table?_qualified (catalog : Catalog) {schema name : String}
    (hschema : '.' ∉ schema.toList) (hname : '.' ∉ name.toList) :
    catalog.table? (schema ++ "." ++ name)
      = catalog.filed? (upper schema) (upper name) := by
  have hparse : QualifiedName.parse (schema ++ "." ++ name)
      = { schema := some schema, name := name } := by
    rw [QualifiedName.parse, beforeLastDot_qualified hname,
      lastSegment_qualified hname, Option.map_some, lastSegment_name hschema]
  rw [table?, hparse]
  rfl

/-- A bare name is looked up in the default schema, and then in every schema. -/
theorem table?_bare (hkeyed : catalog.Keyed) {name : String}
    (hname : '.' ∉ name.toList) :
    catalog.table? name
      = ((catalog.defaultSchema.bind fun schema =>
          catalog.filed? (upper schema) (upper name))
        <|> catalog.schemas.keys.findSome? fun schemaKey =>
          catalog.filed? schemaKey (upper name)) := by
  have hparse : QualifiedName.parse name
      = { schema := none, name := name } := by
    rw [QualifiedName.parse, beforeLastDot_name hname, lastSegment_name hname,
      Option.map_none]
  have hall : catalog.schemas.values.findSome? (·.tables.get? (upper name))
      = catalog.schemas.keys.findSome? fun schemaKey =>
        catalog.filed? schemaKey (upper name) := by
    calc catalog.schemas.values.findSome? (·.tables.get? (upper name))
        = (catalog.schemas.values.map some).findSome? fun schema =>
          schema.bind (·.tables.get? (upper name)) := by
          rw [List.findSome?_map]
          rfl
      _ = (catalog.schemas.keys.map catalog.schemas.get?).findSome?
          fun schema => schema.bind (·.tables.get? (upper name)) := by
          rw [Entries.map_get?_keys hkeyed.schemas]
      _ = catalog.schemas.keys.findSome? fun schemaKey =>
          catalog.filed? schemaKey (upper name) := by
          rw [List.findSome?_map]
          rfl
  rw [table?, hparse]
  simp only [hall]
  cases catalog.defaultSchema with
  | none => rfl
  | some schema => rfl

/-- The tables are what the keys read, schema by schema. -/
theorem map_some_tables (hkeyed : catalog.Keyed) :
    catalog.tables.map some
      = catalog.schemas.keys.flatMap fun schemaKey =>
        (catalog.tableKeys schemaKey).map (catalog.filed? schemaKey) := by
  rw [tables, List.map_flatMap, Entries.values, Entries.keys, List.flatMap_map,
    List.flatMap_map]
  apply List.flatMap_congr
  rintro ⟨schemaKey, schema⟩ hmem
  have hget : catalog.schemas.get? schemaKey = some schema :=
    Entries.get?_of_mem hkeyed.schemas hmem
  have hkeys : catalog.tableKeys schemaKey = schema.tables.keys := by
    rw [tableKeys, hget]
    rfl
  have hentry : catalog.filed? schemaKey = schema.tables.get? := by
    funext key
    rw [filed?, hget]
    rfl
  have hnodup : schema.tables.keys.Nodup := hkeys ▸ hkeyed.tables schemaKey
  show schema.tables.values.map some
    = (catalog.tableKeys schemaKey).map (catalog.filed? schemaKey)
  rw [hkeys, hentry, Entries.map_get?_keys hnodup]

/-- Every table is filed under some keys. -/
theorem exists_filed?_of_mem_tables (hkeyed : catalog.Keyed) {table : Table}
    (h : table ∈ catalog.tables) :
    ∃ schemaKey key, catalog.filed? schemaKey key = some table := by
  have hsome : some table ∈ catalog.tables.map some := List.mem_map_of_mem h
  rw [map_some_tables hkeyed, List.mem_flatMap] at hsome
  obtain ⟨schemaKey, -, hschema⟩ := hsome
  obtain ⟨key, -, hentry⟩ := List.mem_map.1 hschema
  exact ⟨schemaKey, key, hentry⟩

/-- A table that is filed under some keys can be named without its schema,
though the name may stand for another. -/
theorem hasTable_of_filed? (hkeyed : catalog.Keyed) {schemaKey name : String}
    {table : Table} (hname : '.' ∉ name.toList)
    (h : catalog.filed? schemaKey (upper name) = some table) :
    catalog.hasTable name = true := by
  have hmem : schemaKey ∈ catalog.schemas.keys := by
    rw [← Entries.isSome_get?_iff]
    rw [filed?, Option.bind_eq_some_iff] at h
    obtain ⟨schema, hschema, -⟩ := h
    rw [hschema]
    rfl
  have hfound : (catalog.schemas.keys.findSome? fun schemaKey =>
        catalog.filed? schemaKey (upper name)).isSome = true := by
    rw [List.findSome?_isSome_iff]
    exact ⟨schemaKey, hmem, by rw [h]; rfl⟩
  rw [hasTable, table?_bare hkeyed hname]
  cases catalog.defaultSchema.bind fun schema =>
    catalog.filed? (upper schema) (upper name) with
  | none => exact hfound
  | some other => rfl

end

/-! ## One change -/

/-- The key of the schema that a table is filed under. -/
def filingKey (catalog : Catalog) (table : Table) : String :=
  upper ((table.schema <|> catalog.defaultSchema).getD "")

section

variable (catalog : Catalog)

theorem get?_ensureSchema (name schemaKey : String) :
    (catalog.ensureSchema name).schemas.get? schemaKey
      = if schemaKey = upper name then
          some ((catalog.schemas.get? schemaKey).getD { name := name })
        else catalog.schemas.get? schemaKey := by
  rw [ensureSchema, schema?]
  by_cases hkey : schemaKey = upper name
  · subst hkey
    rw [if_pos rfl]
    split
    · rename_i hsome
      obtain ⟨schema, hschema⟩ := Option.isSome_iff_exists.1 hsome
      rw [hschema]
      rfl
    · rename_i hnone
      rw [Option.not_isSome_iff_eq_none.1 hnone]
      exact Entries.get?_put_self _ _ _
  · rw [if_neg hkey]
    split
    · rfl
    · exact Entries.get?_put_of_ne _ _ (Ne.symm hkey)

/-- A schema that is new comes last. -/
theorem keys_ensureSchema (name : String) :
    (catalog.ensureSchema name).schemas.keys
      = if upper name ∈ catalog.schemas.keys then catalog.schemas.keys
        else catalog.schemas.keys ++ [upper name] := by
  rw [ensureSchema, schema?]
  by_cases hkey : upper name ∈ catalog.schemas.keys
  · rw [if_pos hkey, if_pos ((Entries.isSome_get?_iff _ _).2 hkey)]
  · rw [if_neg hkey,
      if_neg (fun hsome => hkey ((Entries.isSome_get?_iff _ _).1 hsome))]
    show (catalog.schemas.put (upper name) { name := name }).keys = _
    rw [Entries.keys_put, if_neg hkey]

theorem filed?_ensureSchema (name schemaKey key : String) :
    (catalog.ensureSchema name).filed? schemaKey key
      = catalog.filed? schemaKey key := by
  rw [filed?, filed?, get?_ensureSchema]
  by_cases hkey : schemaKey = upper name
  · rw [if_pos hkey]
    cases catalog.schemas.get? schemaKey <;> rfl
  · rw [if_neg hkey]

theorem tableKeys_ensureSchema (name schemaKey : String) :
    (catalog.ensureSchema name).tableKeys schemaKey
      = catalog.tableKeys schemaKey := by
  rw [tableKeys, tableKeys, get?_ensureSchema]
  by_cases hkey : schemaKey = upper name
  · rw [if_pos hkey]
    cases catalog.schemas.get? schemaKey <;> rfl
  · rw [if_neg hkey]

theorem defaultSchema_ensureSchema (name : String) :
    (catalog.ensureSchema name).defaultSchema = catalog.defaultSchema := by
  rw [ensureSchema]
  split <;> rfl

theorem defaultSchema_addTable (table : Table) :
    (catalog.addTable table).defaultSchema = catalog.defaultSchema :=
  catalog.defaultSchema_ensureSchema _

variable (table : Table)

theorem keys_addTable :
    (catalog.addTable table).schemas.keys
      = if catalog.filingKey table ∈ catalog.schemas.keys then
          catalog.schemas.keys
        else catalog.schemas.keys ++ [catalog.filingKey table] := by
  rw [addTable, Entries.keys_modify, keys_ensureSchema]
  rfl

/-- Only the schema that a table is filed under changes. -/
theorem get?_addTable (schemaKey : String) :
    (catalog.addTable table).schemas.get? schemaKey
      = if schemaKey = catalog.filingKey table then
          some (((catalog.schemas.get? schemaKey).getD
            { name :=
                (table.schema <|> catalog.defaultSchema).getD "" }).fileTable
            table)
        else catalog.schemas.get? schemaKey := by
  rw [addTable, Entries.get?_modify, get?_ensureSchema, filingKey]
  split
  · rfl
  · rfl

/-- A table that is added is filed under its keys, and no other
entry changes. -/
theorem filed?_addTable (schemaKey key : String) :
    (catalog.addTable table).filed? schemaKey key
      = if schemaKey = catalog.filingKey table ∧ key = upper table.name then
          some table
        else catalog.filed? schemaKey key := by
  rw [filed?, filed?, get?_addTable]
  by_cases hschema : schemaKey = catalog.filingKey table
  · rw [if_pos hschema, Option.bind_some, Schema.fileTable]
    by_cases hkey : key = upper table.name
    · rw [if_pos ⟨hschema, hkey⟩, hkey]
      exact Entries.get?_put_self _ _ _
    · rw [if_neg (fun h => hkey h.2)]
      show (Entries.put _ (upper table.name) table).get? key = _
      rw [Entries.get?_put_of_ne _ _ (Ne.symm hkey)]
      cases catalog.schemas.get? schemaKey <;> rfl
  · rw [if_neg hschema, if_neg (fun h => hschema h.1)]

/-- A table that is new to its schema comes last there. -/
theorem tableKeys_addTable (schemaKey : String) :
    (catalog.addTable table).tableKeys schemaKey
      = if schemaKey = catalog.filingKey table then
          if upper table.name ∈ catalog.tableKeys schemaKey then
            catalog.tableKeys schemaKey
          else catalog.tableKeys schemaKey ++ [upper table.name]
        else catalog.tableKeys schemaKey := by
  rw [tableKeys, tableKeys, get?_addTable]
  by_cases hschema : schemaKey = catalog.filingKey table
  · rw [if_pos hschema, if_pos hschema, Option.map_some, Option.getD_some]
    show (Entries.put _ (upper table.name) table).keys = _
    rw [Entries.keys_put]
    cases catalog.schemas.get? schemaKey <;> rfl
  · rw [if_neg hschema, if_neg hschema]

end

/-! ## A change of one table -/

/-- The catalog with the table under two keys changed. -/
def alterEntry (catalog : Catalog) (schemaKey key : String)
    (f : Table → Table) : Catalog :=
  { catalog with
    schemas := catalog.schemas.modify (·.modifyTable key f) schemaKey }

theorem filed?_alterEntry (catalog : Catalog) (schemaKey key : String)
    (f : Table → Table) (otherSchema other : String) :
    (catalog.alterEntry schemaKey key f).filed? otherSchema other
      = if otherSchema = schemaKey ∧ other = key then
          (catalog.filed? otherSchema other).map f
        else catalog.filed? otherSchema other := by
  rw [filed?, filed?, alterEntry, Entries.get?_modify]
  by_cases hschema : otherSchema = schemaKey
  · rw [if_pos hschema]
    cases catalog.schemas.get? otherSchema with
    | none => simp
    | some schema =>
      show (schema.tables.modify f key).get? other = _
      rw [Entries.get?_modify]
      simp [hschema]
  · rw [if_neg hschema, if_neg (fun h => hschema h.1)]

theorem keys_alterEntry (catalog : Catalog) (schemaKey key : String)
    (f : Table → Table) :
    (catalog.alterEntry schemaKey key f).schemas.keys = catalog.schemas.keys :=
  Entries.keys_modify _ _ _

theorem tableKeys_alterEntry (catalog : Catalog) (schemaKey key : String)
    (f : Table → Table) (otherSchema : String) :
    (catalog.alterEntry schemaKey key f).tableKeys otherSchema
      = catalog.tableKeys otherSchema := by
  rw [tableKeys, tableKeys, alterEntry, Entries.get?_modify]
  by_cases hschema : otherSchema = schemaKey
  · rw [if_pos hschema]
    cases catalog.schemas.get? otherSchema with
    | none => rfl
    | some schema => exact Entries.keys_modify _ _ _
  · rw [if_neg hschema]

theorem modifyIn_eq_some {schemaKey key : String} {f : Table → Table}
    {schemas changed : Entries Schema}
    (h : modifyIn schemaKey key f schemas = some changed) :
    changed = schemas.modify (·.modifyTable key f) schemaKey := by
  unfold modifyIn at h
  split at h
  · split at h
    · exact (Option.some.inj h).symm
    · cases h
  · cases h

/-- The first schema that has the table is told by its key. -/
theorem modifyInFirst_eq_some {key : String} {f : Table → Table}
    {schemas changed : Entries Schema} (hnodup : schemas.keys.Nodup)
    (h : modifyInFirst key f schemas = some changed) :
    ∃ schemaKey ∈ schemas.keys,
      changed = schemas.modify (·.modifyTable key f) schemaKey := by
  induction schemas generalizing changed with
  | nil => cases h
  | cons e rest ih =>
    obtain ⟨k, schema⟩ := e
    obtain ⟨hfirst, hrest⟩ := List.nodup_cons.1 hnodup
    rw [modifyInFirst] at h
    split at h
    · refine ⟨k, List.mem_cons_self, ?_⟩
      rw [← Option.some.inj h, Entries.modify, if_pos rfl]
    · obtain ⟨changed', hchanged, rfl⟩ := Option.map_eq_some_iff.1 h
      obtain ⟨schemaKey, hmem, rfl⟩ := ih hrest hchanged
      have hne : k ≠ schemaKey := fun heq => hfirst (heq ▸ hmem)
      exact ⟨schemaKey, List.mem_cons_of_mem k hmem,
        by rw [Entries.modify, if_neg hne]⟩

/-- Changing the table that a name stands for changes the table
under two keys. -/
theorem modifyTable?_eq_some {catalog changed : Catalog}
    (hnodup : catalog.schemas.keys.Nodup) {name : String} {f : Table → Table}
    (h : catalog.modifyTable? name f = some changed) :
    ∃ schemaKey key, changed = catalog.alterEntry schemaKey key f := by
  rw [modifyTable?] at h
  obtain ⟨schemas, hschemas, rfl⟩ := Option.map_eq_some_iff.1 h
  split at hschemas
  · exact ⟨_, _, by rw [modifyIn_eq_some hschemas, alterEntry]⟩
  · rw [Option.orElse_eq_orElse, Option.orElse_eq_or,
      Option.or_eq_some_iff] at hschemas
    rcases hschemas with hdefault | ⟨-, hfirst⟩
    · obtain ⟨schema, -, hin⟩ := Option.bind_eq_some_iff.1 hdefault
      exact ⟨_, _, by rw [modifyIn_eq_some hin, alterEntry]⟩
    · obtain ⟨schemaKey, -, heq⟩ := modifyInFirst_eq_some hnodup hfirst
      exact ⟨schemaKey, _, by rw [heq, alterEntry]⟩

/-! ## Keys come once -/

theorem nodup_addKey {keys : List String} (h : keys.Nodup) (key : String) :
    (if key ∈ keys then keys else keys ++ [key]).Nodup := by
  split
  · exact h
  · rename_i hnew
    refine List.nodup_append.2 ⟨h, List.nodup_singleton key, ?_⟩
    intro a ha b hb heq
    rw [List.mem_singleton.1 hb] at heq
    exact hnew (heq ▸ ha)

namespace Keyed

variable {catalog : Catalog}

theorem ensureSchema (h : catalog.Keyed) (name : String) :
    (catalog.ensureSchema name).Keyed where
  schemas := by
    rw [keys_ensureSchema]
    exact nodup_addKey h.schemas _
  tables schemaKey := by
    rw [tableKeys_ensureSchema]
    exact h.tables schemaKey

theorem addTable (h : catalog.Keyed) (table : Table) :
    (catalog.addTable table).Keyed where
  schemas := by
    rw [keys_addTable]
    exact nodup_addKey h.schemas _
  tables schemaKey := by
    rw [tableKeys_addTable]
    split
    · exact nodup_addKey (h.tables schemaKey) _
    · exact h.tables schemaKey

theorem alterEntry (h : catalog.Keyed) (schemaKey key : String)
    (f : Table → Table) : (catalog.alterEntry schemaKey key f).Keyed where
  schemas := by
    rw [keys_alterEntry]
    exact h.schemas
  tables otherSchema := by
    rw [tableKeys_alterEntry]
    exact h.tables otherSchema

end Keyed

end Catalog

end QueryAssist
