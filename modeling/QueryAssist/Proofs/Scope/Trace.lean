import QueryAssist.Proofs.Scope.Expansion
import QueryAssist.Proofs.Scope.Verdict

/-!
# Tracing columns to tables

A column of a subquery that is a plain reference leads to a column of what the
subquery reads from: a table, or a subquery that is defined earlier, be it the
one that is named or one further down that a wildcard leads to. So a chain of
references passes each definition at most once, and a trace that may take as
many steps as there are definitions follows every chain to its end.
-/

namespace QueryAssist

namespace Resolver

variable {r : Resolver} {text : Text} {s s' : Subquery}
  {column column' : OutputColumn}

/-! ## Chains of references -/

/-- The path that a column of a subquery is read from: the one that its
qualifier is bound to, or else the only table of the body. -/
inductive ReadsFrom (r : Resolver) (s : Subquery)
    (column : OutputColumn) : String → Prop
  | qualified {qualifier : String} (h : column.sourceTable = some qualifier) :
      ReadsFrom r s column ((r.bodyBindings s).target qualifier)
  | onlyTable {table : TableRef} (h : column.sourceTable = none)
      (htables : (r.bodyBindings s).tables = [table]) :
      ReadsFrom r s column table.name

/-- A column of a subquery is a plain reference to another column, which is
looked up in what the path stands for. -/
inductive Refers (r : Resolver) : ColumnRef → ColumnRef → Prop
  | intro {s : Subquery} {column : OutputColumn} {name target : String}
      {source : Source} {next : ColumnRef}
      (hname : column.sourceColumn = some name)
      (htarget : r.ReadsFrom s column target)
      (hsource : r.source? target (r.declaredBefore s) = some source)
      (hfound : r.lookupIn source name = .found source next) :
      Refers r (.subquery s column) next

/-- So many references, one after the other, lead from a column to a column
of a table. -/
inductive LeadsTo (r : Resolver) : Nat → ColumnRef → Table → Column → Prop
  | here (table : Table) (column : Column) :
      LeadsTo r 0 (.table table column) table column
  | step {steps : Nat} {first next : ColumnRef} {table : Table}
      {column : Column} (hrefers : r.Refers first next)
      (htail : LeadsTo r steps next table column) :
      LeadsTo r (steps + 1) first table column

/-- A step of a trace is a reference. -/
theorem traceStep_eq_some_iff {next : ColumnRef} :
    r.traceStep s column = some next ↔ r.Refers (.subquery s column) next := by
  constructor
  · intro h
    obtain ⟨name, hname, h⟩ := Option.bind_eq_some_iff.1 h
    simp only at h
    -- Whichever way the path is found, the rest is one lookup.
    have hrest : ∃ target, r.ReadsFrom s column target ∧
        ∃ source, r.source? target (r.declaredBefore s) = some source ∧
          ∃ found, r.lookupIn source name = .found found next := by
      split at h
      · rename_i qualifier hqualifier
        obtain ⟨target, htarget, h⟩ := Option.bind_eq_some_iff.1 h
        obtain ⟨source, hsource, h⟩ := Option.bind_eq_some_iff.1 h
        refine ⟨target, Option.some.inj htarget ▸ .qualified hqualifier, source,
          hsource, ?_⟩
        split at h <;> simp_all
      · rename_i table hnone htables
        obtain ⟨target, htarget, h⟩ := Option.bind_eq_some_iff.1 h
        obtain ⟨source, hsource, h⟩ := Option.bind_eq_some_iff.1 h
        refine ⟨target, Option.some.inj htarget ▸ .onlyTable hnone htables,
          source, hsource, ?_⟩
        split at h <;> simp_all
      · cases h
    obtain ⟨target, htarget, source, hsource, found, hlookup⟩ := hrest
    obtain ⟨rfl, -⟩ := r.lookupIn_eq_found_iff.1 hlookup
    exact .intro hname htarget hsource hlookup
  · rintro ⟨hname, htarget, hsource, hfound⟩
    have hvisible : (r.bodyBindings s).visible = r.declaredBefore s := rfl
    cases htarget with
    | qualified hqualifier =>
      simp [traceStep, hname, hqualifier, hvisible, hsource, hfound]
    | onlyTable hnone htables =>
      simp [traceStep, hname, hnone, htables, hvisible, hsource, hfound]

/-! ## Where a reference leads -/

theorem mem_columns_concat {lists : List ColumnList} {c : ColumnRef}
    (h : c ∈ (ColumnList.concat lists).columns) :
    ∃ list ∈ lists, c ∈ list.columns := by
  induction lists with
  | nil => cases h
  | cons list lists ih =>
    have hcons : ColumnList.concat (list :: lists)
        = list.append (.concat lists) := rfl
    rw [hcons, ColumnList.append] at h
    rcases List.mem_append.1 h with hfirst | hrest
    · exact ⟨list, List.mem_cons_self, hfirst⟩
    · obtain ⟨other, hother, hmem⟩ := ih hrest
      exact ⟨other, List.mem_cons_of_mem list hother, hmem⟩

/-- The columns of a table are its own. -/
theorem subquery_notMem_tableColumns (table : Table) :
    .subquery s column ∉ (tableColumns table).columns := by
  intro h
  obtain ⟨own, -, heq⟩ := List.mem_map.1 h
  cases heq

theorem eq_of_mem_declaredColumns
    (h : .subquery s' column ∈ (declaredColumns s).columns) : s' = s := by
  obtain ⟨own, -, heq⟩ := List.mem_map.1 h
  exact (ColumnRef.subquery.inj heq).1.symm

/-- A wildcard leads only to columns of subqueries that are defined earlier. -/
theorem start_lt_of_mem_expandWithin {depth : Nat} {visited : List String}
    (h : .subquery s' column ∈ (r.expandWithin depth visited s).columns) :
    s' ∈ r.subqueries ∧ s'.start < s.start := by
  -- By induction on the depth: what a path stands for is earlier, and its own
  -- wildcards lead further back.
  induction depth generalizing s visited with
  | zero =>
    rw [expandWithin] at h
    split at h
    · cases h
    · split at h <;> cases h
  | succ depth ih =>
    rw [expandWithin] at h
    split at h
    · cases h
    · split at h
      · cases h
      · obtain ⟨list, hlist, hmem⟩ := mem_columns_concat h
        obtain ⟨target, -, rfl⟩ := List.mem_map.1 hlist
        split at hmem
        · exact absurd hmem (subquery_notMem_tableColumns _)
        · rename_i inner hsource
          obtain ⟨hinner, hlt⟩ := start_lt_of_source? hsource
          rcases List.mem_append.1 hmem with hown | hdeeper
          · obtain rfl := eq_of_mem_declaredColumns hown
            exact ⟨hinner, hlt⟩
          · obtain ⟨hs', hlt'⟩ := ih hdeeper
            exact ⟨hs', by omega⟩
        · cases hmem

/-- A reference leads to an earlier definition, or to a table. -/
theorem start_lt_of_refers
    (h : r.Refers (.subquery s column) (.subquery s' column')) :
    s' ∈ r.subqueries ∧ s'.start < s.start := by
  cases h with
  | @intro _ _ name target source _ hname htarget hsource hfound =>
    have hcolumn := ((r.lookupIn_eq_found_iff).1 hfound).2
    have hmem := List.mem_of_find?_eq_some hcolumn
    cases source with
    | table table => exact absurd hmem (subquery_notMem_tableColumns table)
    | subquery inner =>
      obtain ⟨hinner, hlt⟩ := start_lt_of_source? hsource
      rcases List.mem_append.1 hmem with hown | hwildcard
      · obtain rfl := eq_of_mem_declaredColumns hown
        exact ⟨hinner, hlt⟩
      · obtain ⟨hs', hlt'⟩ := start_lt_of_mem_expandWithin hwildcard
        exact ⟨hs', by omega⟩

/-! ## The length of a chain -/

/-- How many definitions a chain from a column can pass: none from a table; from
a subquery its own and those before it. -/
def reach (r : Resolver) : ColumnRef → Nat
  | .table _ _ => 0
  | .subquery s _ => (r.declaredBefore s).length + 1

/-- Each reference leaves fewer definitions to pass. -/
theorem reach_lt_of_refers {first next : ColumnRef} (h : r.Refers first next) :
    r.reach next < r.reach first := by
  cases first with
  | table table column => cases h
  | subquery s column =>
    cases next with
    | table table column => exact Nat.succ_pos _
    | subquery s' column' =>
      obtain ⟨hs', hlt⟩ := start_lt_of_refers h
      exact Nat.succ_lt_succ (length_declaredBefore_lt hs' hlt)

theorem LeadsTo.steps_le {steps : Nat} {first : ColumnRef} {table : Table}
    {column : Column}
    (h : r.LeadsTo steps first table column) : steps ≤ r.reach first := by
  induction h with
  | here => exact Nat.zero_le _
  | step hrefers _ ih =>
    have := reach_lt_of_refers hrefers
    omega

theorem reach_le_of_mem (h : s ∈ r.subqueries) (column : OutputColumn) :
    r.reach (.subquery s column) ≤ r.subqueries.length :=
  List.length_filter_lt_length_iff_exists.2 ⟨s, h, by simp⟩

/-- A trace from a column of a table ends there, and so does the only chain. -/
theorem traceWithin_table_eq_some_iff (limit : Nat) {own table : Table}
    {ownColumn column : Column} :
    r.traceWithin limit (.table own ownColumn) = some (table, column) ↔
      ∃ steps, r.LeadsTo steps (.table own ownColumn) table column := by
  have hends : r.traceWithin limit (.table own ownColumn)
      = some (own, ownColumn) := by cases limit <;> rfl
  rw [hends, Option.some.injEq, Prod.mk.injEq]
  constructor
  · rintro ⟨rfl, rfl⟩
    exact ⟨0, .here own ownColumn⟩
  · rintro ⟨steps, hleads⟩
    cases hleads with
    | here => exact ⟨rfl, rfl⟩
    | step hrefers => cases hrefers

/-- A trace that may go as far as a chain can follows every chain, and
nothing else. -/
theorem traceWithin_eq_some_iff {limit : Nat} {first : ColumnRef}
    {table : Table} {column : Column} (h : r.reach first ≤ limit) :
    r.traceWithin limit first = some (table, column) ↔
      ∃ steps, r.LeadsTo steps first table column := by
  induction limit generalizing first with
  | zero =>
    cases first with
    | table own ownColumn => exact traceWithin_table_eq_some_iff 0
    | subquery s own => exact absurd h (Nat.not_succ_le_zero _)
  | succ limit ih =>
    cases first with
    | table own ownColumn => exact traceWithin_table_eq_some_iff (limit + 1)
    | subquery s own =>
      rw [traceWithin, Option.bind_eq_some_iff]
      constructor
      · rintro ⟨next, hstep, htrace⟩
        have hrefers := traceStep_eq_some_iff.1 hstep
        have hless := reach_lt_of_refers hrefers
        obtain ⟨steps, hleads⟩ := (ih (by omega)).1 htrace
        exact ⟨steps + 1, .step hrefers hleads⟩
      · rintro ⟨steps, hleads⟩
        cases hleads with
        | step hrefers htail =>
          have hless := reach_lt_of_refers hrefers
          exact ⟨_, traceStep_eq_some_iff.2 hrefers,
            (ih (by omega)).2 ⟨_, htail⟩⟩

/-- Where definitions stand in the order in which they start, one that starts
earlier has an earlier place. -/
theorem lt_of_start_lt (htext : r.document = Document.ofText text) {i j : Nat}
    (hi : r.subqueries[i]? = some s') (hj : r.subqueries[j]? = some s)
    (hlt : s'.start < s.start) : i < j := by
  obtain ⟨hilt, rfl⟩ := List.getElem?_eq_some_iff.1 hi
  obtain ⟨hjlt, rfl⟩ := List.getElem?_eq_some_iff.1 hj
  have hordered := List.pairwise_iff_getElem.1 (starts_increase htext)
  refine Nat.lt_of_not_le ?_
  intro hle
  rcases Nat.lt_or_eq_of_le hle with hgt | rfl
  · have := hordered j i hjlt hilt hgt
    omega
  · omega

end Resolver

/-- The trace of a column finds a column of a table iff some number of
references, one after the other, lead there. Such a chain takes no more
references than there are definitions, and each of them leads to a table or to a
definition at an earlier place. -/
theorem trace_follows_every_chain (text : Text) (catalog : Option Catalog)
    (first : ColumnRef)
    (hfirst : ∀ s column,
      first = .subquery s column → s ∈ parseSubqueries text) :
    let r : Resolver := { document := Document.ofText text, catalog }
    (∀ table column, r.trace first = some (table, column) ↔
        ∃ steps, r.LeadsTo steps first table column) ∧
      (∀ (steps : Nat) table column,
        r.LeadsTo steps first table column → steps ≤ r.subqueries.length) ∧
      ∀ (place : Nat) s column s' column', r.subqueries[place]? = some s →
        r.Refers (.subquery s column) (.subquery s' column') →
        ∃ earlier, earlier < place ∧ r.subqueries[earlier]? = some s' := by
  intro r
  have hreach : r.reach first ≤ r.subqueries.length := by
    cases first with
    | table => exact Nat.zero_le _
    | subquery s column =>
      exact Resolver.reach_le_of_mem (hfirst s column rfl) column
  refine ⟨?_, ?_, ?_⟩
  · intro table column
    exact Resolver.traceWithin_eq_some_iff hreach
  · intro steps table column hleads
    exact Nat.le_trans hleads.steps_le hreach
  · intro place s column s' column' hplace hrefers
    obtain ⟨hs', hlt⟩ := Resolver.start_lt_of_refers hrefers
    obtain ⟨earlier, hearlier⟩ := List.mem_iff_getElem?.1 hs'
    exact ⟨earlier, Resolver.lt_of_start_lt rfl hearlier hplace hlt, hearlier⟩

/-- A column that is handed on by every definition, the first of which has the
name of the table it reads from. -/
def chainedQuery : Text :=
  ("WITH t AS (SELECT n FROM t), b AS (SELECT n m FROM t), "
    ++ "c AS (SELECT b.m FROM b) SELECT 1").toList

def chainedResolver : Resolver :=
  { document := Document.ofText chainedQuery
    catalog :=
      some (.ofTables [{ name := "T", columns := [{ name := "N" }] }]) }

/-- A column of the last definition is traced through all three, for which two
steps would not be enough. -/
theorem trace_follows_every_chain_chainedQuery :
    ∃ s column, s ∈ chainedResolver.subqueries ∧ column ∈ s.columns ∧
      chainedResolver.subqueries.length = 3 ∧
      chainedResolver.traceWithin 2 (.subquery s column) = none ∧
      ∃ steps, steps ≤ 3 ∧
        chainedResolver.LeadsTo steps (.subquery s column)
          { name := "T", columns := [{ name := "N" }] } { name := "N" } := by
  have hlast : ∃ s ∈ chainedResolver.subqueries, ∃ column ∈ s.columns,
      chainedResolver.subqueries.length = 3 ∧
        chainedResolver.traceWithin 2 (.subquery s column) = none ∧
        chainedResolver.trace (.subquery s column)
          = some ({ name := "T", columns := [{ name := "N" }] },
            { name := "N" }) := by decide +kernel
  obtain ⟨s, hs, column, hcolumn, hlength, hshort, htrace⟩ := hlast
  have hmember : ∀ s' column',
      ColumnRef.subquery s column = .subquery s' column' →
        s' ∈ parseSubqueries chainedQuery := by
    intro s' column' heq
    exact (ColumnRef.subquery.inj heq).1 ▸ hs
  obtain ⟨hiff, hbound, -⟩ :=
    trace_follows_every_chain chainedQuery chainedResolver.catalog
      (.subquery s column) hmember
  obtain ⟨steps, hleads⟩ := (hiff _ _).1 htrace
  exact ⟨s, column, hs, hcolumn, hlength, hshort, steps,
    Nat.le_trans (hbound steps _ _ hleads) (Nat.le_of_eq hlength), hleads⟩

end QueryAssist
