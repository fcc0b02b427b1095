import Mathlib.Data.List.Induction
import Mathlib.Data.Option.Basic
import Mathlib.Data.Prod.Basic
import QueryAssist.Proofs.Catalog.Filing

/-!
# The last table of a name counts

A catalog of a list of tables, read off the list alone. Under the keys of a
schema and a name stands the last table of the list that has both; schemas, and
the tables of each, come in the order in which the list first mentions them.
-/

namespace QueryAssist

open Text

/-! ## What a list of tables says -/

namespace Table

/-- The schema of a table in upper case, empty if it has none. -/
def schemaKey (table : Table) : String := upper (table.schema.getD "")

/-- The name of a table in upper case. -/
def nameKey (table : Table) : String := upper table.name

/-- Both keys of a table. -/
def keys (table : Table) : String × String := (table.schemaKey, table.nameKey)

end Table

/-- The last table of a list that has these keys. -/
def lastFiled (tables : List Table)
    (schemaKey nameKey : String) : Option Table :=
  (tables.filter fun t => t.keys = (schemaKey, nameKey)).getLast?

/-- The keys of the schemas in the order in which a list first mentions them. -/
def schemaOrder (tables : List Table) : List String :=
  (tables.map Table.schemaKey).eraseDups

/-- The keys of the tables of a schema in the order in which a list first
mentions them. -/
def tableOrder (tables : List Table) (schemaKey : String) : List String :=
  ((tables.filter fun t => t.schemaKey = schemaKey).map Table.nameKey).eraseDups

/-! ## One table more -/

/-- One more element comes last, unless it was there. -/
theorem eraseDups_concat (keys : List String) (key : String) :
    (keys ++ [key]).eraseDups
      = if key ∈ keys.eraseDups then keys.eraseDups
        else keys.eraseDups ++ [key] := by
  rw [List.eraseDups_append]
  by_cases h : key ∈ keys
  · have hold : [key].removeAll keys = [] := by simp [List.removeAll, h]
    rw [hold, if_pos (List.mem_eraseDups.2 h), List.eraseDups_nil,
      List.append_nil]
  · have hnew : [key].removeAll keys = [key] := by simp [List.removeAll, h]
    rw [hnew, if_neg (fun hmem => h (List.mem_eraseDups.1 hmem))]
    rfl

section

variable (tables : List Table) (table : Table)

theorem lastFiled_concat (schemaKey nameKey : String) :
    lastFiled (tables ++ [table]) schemaKey nameKey
      = if schemaKey = table.schemaKey ∧ nameKey = table.nameKey then some table
        else lastFiled tables schemaKey nameKey := by
  rw [lastFiled, List.filter_append]
  by_cases h : schemaKey = table.schemaKey ∧ nameKey = table.nameKey
  · have hkeys : table.keys = (schemaKey, nameKey) := by
      rw [Table.keys, h.1, h.2]
    rw [if_pos h, List.filter_cons_of_pos (by simpa using hkeys),
      List.filter_nil, List.getLast?_concat]
  · have hkeys : ¬ table.keys = (schemaKey, nameKey) := by
      intro heq
      cases heq
      exact h ⟨rfl, rfl⟩
    rw [if_neg h, List.filter_cons_of_neg (by simpa using hkeys),
      List.filter_nil, List.append_nil]
    rfl

theorem schemaOrder_concat :
    schemaOrder (tables ++ [table])
      = if table.schemaKey ∈ schemaOrder tables then schemaOrder tables
        else schemaOrder tables ++ [table.schemaKey] := by
  rw [schemaOrder, List.map_append, List.map_singleton, eraseDups_concat]
  rfl

theorem tableOrder_concat (schemaKey : String) :
    tableOrder (tables ++ [table]) schemaKey
      = if schemaKey = table.schemaKey then
          if table.nameKey ∈ tableOrder tables schemaKey then
            tableOrder tables schemaKey
          else tableOrder tables schemaKey ++ [table.nameKey]
        else tableOrder tables schemaKey := by
  rw [tableOrder, List.filter_append]
  by_cases h : schemaKey = table.schemaKey
  · rw [if_pos h, List.filter_cons_of_pos (by simpa using h.symm),
      List.filter_nil, List.map_append, List.map_singleton, eraseDups_concat]
    rfl
  · rw [if_neg h, List.filter_cons_of_neg (by simpa using Ne.symm h),
      List.filter_nil, List.append_nil]
    rfl

end

/-! ## The catalog of a list -/

namespace Catalog

theorem ofTables_concat (tables : List Table) (table : Table) :
    ofTables (tables ++ [table]) = (ofTables tables).addTable table := by
  rw [ofTables, List.foldl_append]
  rfl

theorem defaultSchema_ofTables (tables : List Table) :
    (ofTables tables).defaultSchema = none := by
  induction tables using List.reverseRecOn with
  | nil => rfl
  | append_singleton tables table ih =>
    rw [ofTables_concat, defaultSchema_addTable, ih]

theorem filingKey_ofTables (tables : List Table) (table : Table) :
    (ofTables tables).filingKey table = table.schemaKey := by
  rw [filingKey, defaultSchema_ofTables]
  cases hschema : table.schema <;> simp [Table.schemaKey, hschema]

theorem keyed_ofTables (tables : List Table) : (ofTables tables).Keyed := by
  induction tables using List.reverseRecOn with
  | nil => exact ⟨List.nodup_nil, fun _ => List.nodup_nil⟩
  | append_singleton tables table ih =>
    rw [ofTables_concat]
    exact ih.addTable table

theorem keys_ofTables (tables : List Table) :
    (ofTables tables).schemas.keys = schemaOrder tables := by
  induction tables using List.reverseRecOn with
  | nil => rfl
  | append_singleton tables table ih =>
    rw [ofTables_concat, keys_addTable, filingKey_ofTables, ih,
      schemaOrder_concat]

theorem tableKeys_ofTables (tables : List Table) (schemaKey : String) :
    (ofTables tables).tableKeys schemaKey = tableOrder tables schemaKey := by
  induction tables using List.reverseRecOn with
  | nil => rfl
  | append_singleton tables table ih =>
    rw [ofTables_concat, tableKeys_addTable, filingKey_ofTables, ih,
      tableOrder_concat]
    rfl

theorem filed?_ofTables (tables : List Table) (schemaKey nameKey : String) :
    (ofTables tables).filed? schemaKey nameKey
      = lastFiled tables schemaKey nameKey := by
  induction tables using List.reverseRecOn with
  | nil => rfl
  | append_singleton tables table ih =>
    rw [ofTables_concat, filed?_addTable, filingKey_ofTables, ih,
      lastFiled_concat]
    rfl

end Catalog

/-! ## Each pair of keys once -/

section

variable {tables : List Table} {schemaKey nameKey : String}

theorem mem_tableOrder :
    nameKey ∈ tableOrder tables schemaKey ↔
      (schemaKey, nameKey) ∈ tables.map Table.keys := by
  rw [tableOrder, List.mem_eraseDups, List.mem_map, List.mem_map]
  constructor
  · rintro ⟨table, hmem, hname⟩
    obtain ⟨htable, hschema⟩ := List.mem_filter.1 hmem
    refine ⟨table, htable, ?_⟩
    rw [Table.keys, hname, of_decide_eq_true hschema]
  · rintro ⟨table, htable, hkeys⟩
    cases hkeys
    exact ⟨table, List.mem_filter.2 ⟨htable, decide_eq_true rfl⟩, rfl⟩

theorem mem_schemaOrder (h : (schemaKey, nameKey) ∈ tables.map Table.keys) :
    schemaKey ∈ schemaOrder tables := by
  obtain ⟨table, htable, hkeys⟩ := List.mem_map.1 h
  cases hkeys
  exact List.mem_eraseDups.2 (List.mem_map_of_mem htable)

/-- A pair of keys that a list mentions has a last table, which has
these keys. -/
theorem exists_lastFiled (h : nameKey ∈ tableOrder tables schemaKey) :
    ∃ table, lastFiled tables schemaKey nameKey = some table ∧
      table.keys = (schemaKey, nameKey) := by
  obtain ⟨first, hfirst, hkeys⟩ := List.mem_map.1 (mem_tableOrder.1 h)
  have hmem : first ∈ tables.filter fun t => t.keys = (schemaKey, nameKey) :=
    List.mem_filter.2 ⟨hfirst, decide_eq_true hkeys⟩
  cases hlast : lastFiled tables schemaKey nameKey with
  | none =>
    rw [lastFiled, List.getLast?_eq_none_iff] at hlast
    rw [hlast] at hmem
    cases hmem
  | some table =>
    have hlastMem := List.mem_of_getLast? hlast
    exact ⟨table, rfl, of_decide_eq_true (List.mem_filter.1 hlastMem).2⟩

end

/-- The last tables under the keys that a list mentions, schema by schema. -/
theorem map_some_tables_ofTables (tables : List Table) :
    (Catalog.ofTables tables).tables.map some
      = (schemaOrder tables).flatMap fun schemaKey =>
        (tableOrder tables schemaKey).map (lastFiled tables schemaKey) := by
  rw [Catalog.map_some_tables (Catalog.keyed_ofTables tables),
    Catalog.keys_ofTables]
  apply List.flatMap_congr
  intro schemaKey _
  rw [Catalog.tableKeys_ofTables]
  apply List.map_congr_left
  intro nameKey _
  exact Catalog.filed?_ofTables tables schemaKey nameKey

/-- The keys of the tables, schema by schema. -/
theorem map_keys_tables_ofTables (tables : List Table) :
    (Catalog.ofTables tables).tables.map Table.keys
      = (schemaOrder tables).flatMap fun schemaKey =>
        (tableOrder tables schemaKey).map (schemaKey, ·) := by
  apply List.map_injective_iff.2 (Option.some_injective _)
  calc ((Catalog.ofTables tables).tables.map Table.keys).map some
      = ((Catalog.ofTables tables).tables.map some).map
        (Option.map Table.keys) := by simp
    _ = (schemaOrder tables).flatMap fun schemaKey =>
          ((tableOrder tables schemaKey).map (lastFiled tables schemaKey)).map
            (Option.map Table.keys) := by
        rw [map_some_tables_ofTables, List.map_flatMap]
    _ = (schemaOrder tables).flatMap fun schemaKey =>
        ((tableOrder tables schemaKey).map (schemaKey, ·)).map some := by
        apply List.flatMap_congr
        intro schemaKey _
        rw [List.map_map, List.map_map]
        apply List.map_congr_left
        intro nameKey hname
        obtain ⟨table, hlast, hkeys⟩ := exists_lastFiled hname
        rw [Function.comp_apply, hlast, Option.map_some, hkeys,
          Function.comp_apply]
    _ = ((schemaOrder tables).flatMap fun schemaKey =>
        (tableOrder tables schemaKey).map (schemaKey, ·)).map some := by
        rw [List.map_flatMap]

theorem nodup_eraseDups (keys : List String) : keys.eraseDups.Nodup := by
  induction keys using List.reverseRecOn with
  | nil => exact List.nodup_nil
  | append_singleton keys key ih =>
    rw [eraseDups_concat]
    exact Catalog.nodup_addKey ih key

theorem nodup_keys_ofTables (tables : List Table) :
    ((Catalog.ofTables tables).tables.map Table.keys).Nodup := by
  rw [map_keys_tables_ofTables, List.nodup_flatMap]
  constructor
  · intro schemaKey _
    exact (nodup_eraseDups _).map (Prod.mk_right_injective schemaKey)
  · refine (nodup_eraseDups _).imp ?_
    intro schemaKey other hne pair hpair hother
    obtain ⟨nameKey, -, rfl⟩ := List.mem_map.1 hpair
    obtain ⟨otherKey, -, heq⟩ := List.mem_map.1 hother
    exact hne (Prod.mk.inj heq).1.symm

theorem mem_keys_ofTables {tables : List Table} {pair : String × String} :
    pair ∈ (Catalog.ofTables tables).tables.map Table.keys ↔
      pair ∈ tables.map Table.keys := by
  obtain ⟨schemaKey, nameKey⟩ := pair
  rw [map_keys_tables_ofTables, List.mem_flatMap]
  constructor
  · rintro ⟨other, -, hother⟩
    obtain ⟨otherKey, hmem, heq⟩ := List.mem_map.1 hother
    cases heq
    exact mem_tableOrder.1 hmem
  · intro hpair
    exact ⟨schemaKey, mem_schemaOrder hpair,
      List.mem_map_of_mem (mem_tableOrder.2 hpair)⟩

/-! ## Lookups and the list of tables -/

/-- The catalog of a list of tables holds, under each schema and name that the
list mentions, the last table that it gives there. A name in a schema stands for
that table; a bare name for the one in the first schema that has it, in the
order in which the list first mentions schemas. The tables come schema by schema
in this order, in each schema in the order in which the list first mentions
them, and each pair of keys comes once. -/
theorem last_table_of_a_name_counts (tables : List Table) :
    let catalog := Catalog.ofTables tables
    (∀ schema name : String, '.' ∉ schema.toList → '.' ∉ name.toList →
        catalog.table? (schema ++ "." ++ name)
          = lastFiled tables (upper schema) (upper name)) ∧
    (∀ name : String, '.' ∉ name.toList →
        catalog.table? name
          = (schemaOrder tables).findSome? fun schemaKey =>
            lastFiled tables schemaKey (upper name)) ∧
    (catalog.tables.map some
        = (schemaOrder tables).flatMap fun schemaKey =>
          (tableOrder tables schemaKey).map (lastFiled tables schemaKey)) ∧
    ∀ pair,
      (catalog.tables.map Table.keys).count pair
        = if pair ∈ tables.map Table.keys then 1 else 0 := by
  intro catalog
  refine ⟨?_, ?_, map_some_tables_ofTables tables, ?_⟩
  · intro schema name hschema hname
    rw [Catalog.table?_qualified catalog hschema hname, Catalog.filed?_ofTables]
  · intro name hname
    rw [Catalog.table?_bare (Catalog.keyed_ofTables tables) hname,
      Catalog.defaultSchema_ofTables, Catalog.keys_ofTables]
    simp only [Catalog.filed?_ofTables]
    rfl
  · intro pair
    rw [List.Nodup.count (nodup_keys_ofTables tables)]
    simp only [mem_keys_ofTables]

/-- Two tables that are given twice, with other letters the second time, and one
name in two schemas. -/
def rewrittenTables : List Table :=
  [{ name := "emp", schema := some "hr" }, { name := "log" },
    { name := "straße", schema := some "geo" },
    { name := "EMP", schema := some "HR", kind := some "view" },
    { name := "STRASSE", schema := some "Geo" },
    { name := "Log", schema := some "hr" }]

theorem last_table_of_a_name_counts_rewrittenTables :
    let catalog := Catalog.ofTables rewrittenTables
    '.' ∉ "Hr".toList ∧ '.' ∉ "Emp".toList ∧
      catalog.table? ("Hr" ++ "." ++ "Emp")
        = some { name := "EMP", schema := some "HR", kind := some "view" } ∧
      '.' ∉ "LOG".toList ∧
      catalog.table? "LOG" = some { name := "Log", schema := some "hr" } ∧
      catalog.tables.map (fun t => some t.name)
        = [some "EMP", some "Log", some "log", some "STRASSE"] := by
  intro catalog
  obtain ⟨hqualified, hbare, htables, -⟩ :=
    last_table_of_a_name_counts rewrittenTables
  refine ⟨by decide, by decide, ?_, by decide, ?_, ?_⟩
  · rw [hqualified "Hr" "Emp" (by decide) (by decide)]
    decide +kernel
  · rw [hbare "LOG" (by decide)]
    decide +kernel
  · have hnames : catalog.tables.map (fun t => some t.name)
        = (catalog.tables.map some).map (Option.map Table.name) := by simp
    rw [hnames, htables]
    decide +kernel

end QueryAssist
