import QueryAssist.Proofs.Scope.Wording

/-!
# What a lookup comes to

A source names its own columns first among all the columns it has, so a lookup
in one source finds the first column of the name in that list. A lookup misses a
column iff all columns of all the sources it asks are known and none has the
name; in which order the sources are asked does not matter to that, and neither
does the spelling of names.
-/

namespace QueryAssist

open Text

/-- Whether the columns of all sources are known and none is the one
looked for. -/
def Lookup.misses : Lookup → Bool
  | .missing .. => true
  | .found .. | .indeterminate => false

@[simp]
theorem Lookup.misses_found (source : Source) (column : ColumnRef) :
    (found source column).misses = false := rfl

@[simp]
theorem Lookup.misses_missing (sources : List Source)
    (available : List String) : (missing sources available).misses = true := rfl

@[simp]
theorem Lookup.misses_indeterminate : indeterminate.misses = false := rfl

namespace Resolver

variable (r : Resolver)

/-- The first column of this name among all columns of a source. -/
def columnIn? (source : Source) (column : String) : Option ColumnRef :=
  (r.sourceColumns source).columns.find? fun c => sameAscii c.name column

/-- A column that a source declares itself comes before all others
of its name. -/
theorem columnIn?_of_own {source : Source} {column : String} {c : ColumnRef}
    (h : ownColumn? source column = some c) :
    r.columnIn? source column = some c := by
  cases source with
  | table table => cases h
  | subquery s =>
    have hown : (declaredColumns s).columns.find?
          (fun c => sameAscii c.name column) = some c := by
      rw [← h, declaredColumns, List.find?_map]
      rfl
    rw [columnIn?, sourceColumns, ColumnList.append, List.find?_append, hown,
      Option.some_or]

theorem lookupIn_eq_columnIn? (source : Source) (column : String) :
    r.lookupIn source column
      = match r.columnIn? source column with
        | some c => .found source c
        | none =>
          if (r.sourceColumns source).complete then
            .missing [source]
              (dedupNames []
                ((r.sourceColumns source).columns.map ColumnRef.name))
          else .indeterminate := by
  rw [lookupIn_eq]
  cases hown : ownColumn? source column with
  | none => rfl
  | some c => rw [r.columnIn?_of_own hown]

/-- A lookup in one source finds the first column of the name. -/
theorem lookupIn_eq_found_iff {source found : Source} {column : String}
    {c : ColumnRef} :
    r.lookupIn source column = .found found c ↔
      found = source ∧ r.columnIn? source column = some c := by
  rw [lookupIn_eq_columnIn?]
  cases r.columnIn? source column with
  | some first =>
    simp only [Lookup.found.injEq, Option.some.injEq]
    exact and_congr_left' eq_comm
  | none =>
    simp only [reduceCtorEq, and_false, iff_false]
    split <;> simp

theorem lookupIn_misses (source : Source) (column : String) :
    (r.lookupIn source column).misses
      = ((r.sourceColumns source).complete
        && (r.columnIn? source column).isNone) := by
  rw [lookupIn_eq_columnIn?]
  cases r.columnIn? source column with
  | some c => simp
  | none =>
    simp only [Option.isNone_none, Bool.and_true]
    split <;> simp_all

theorem lookupQualified_misses (bindings : Bindings)
    (qualifier column : String) :
    (r.lookupQualified bindings qualifier column).misses
      = (r.source? (bindings.target qualifier) bindings.visible).any
        fun source => (r.lookupIn source column).misses := by
  rw [lookupQualified]
  cases r.source? (bindings.target qualifier) bindings.visible with
  | none => rfl
  | some source => rfl

/-- Whatever the tables before came to, the rest misses a column iff each of
its tables does. -/
theorem lookupAmong_misses (visible : List Subquery) (column : String)
    (sources : List Source) (available : List String) (tables : List TableRef) :
    (r.lookupAmong visible column sources available tables).misses
      = tables.all fun table =>
          (r.source? table.name visible).any fun source =>
            (r.lookupIn source column).misses := by
  induction tables generalizing sources available with
  | nil => rfl
  | cons table tables ih =>
    rw [lookupAmong, List.all_cons]
    cases r.source? table.name visible with
    | none => rfl
    | some source =>
      cases hlookup : r.lookupIn source column with
      | found => simp [hlookup]
      | missing => simp [hlookup, ih]
      | indeterminate => simp [hlookup]

theorem lookupUnqualified_misses (bindings : Bindings) (column : String) :
    (r.lookupUnqualified bindings column).misses
      = (!bindings.tables.isEmpty && bindings.tables.all fun table =>
          (r.source? table.name bindings.visible).any fun source =>
            (r.lookupIn source column).misses) := by
  rw [lookupUnqualified]
  cases bindings.tables.isEmpty with
  | true => rfl
  | false => simp [lookupAmong_misses]

end Resolver

/-! ## In another spelling -/

namespace Respelling.Links

variable {f : Respelling} {r r' : Resolver} (h : f.Links r r')
include h

theorem lookupIn_misses (source : Source) (column : String) :
    (r'.lookupIn (f.source source) (f.name column)).misses
      = (r.lookupIn source column).misses := by
  have hsame : (fun c : ColumnRef => sameAscii c.name (f.name column))
        ∘ f.columnRef
      = fun c => sameAscii c.name column := by
    funext c
    rw [Function.comp_apply, sameAscii, f.fold_columnRef, f.fold_name,
      sameAscii]
  rw [Resolver.lookupIn_misses, Resolver.lookupIn_misses, Resolver.columnIn?,
    Resolver.columnIn?, h.sourceColumns, columnList, List.find?_map, hsame,
    Option.isNone_map]

theorem lookupQualified_misses (b : Bindings) (qualifier column : String) :
    (r'.lookupQualified (f.bindings b) (f.name qualifier)
        (f.name column)).misses
      = (r.lookupQualified b qualifier column).misses := by
  have hvisible : (f.bindings b).visible = b.visible.map f.subquery := rfl
  have htarget := f.fold_target (f.fold_name qualifier) b
  rw [Resolver.lookupQualified_misses, Resolver.lookupQualified_misses,
    hvisible, h.source? htarget, Option.any_map]
  exact congrArg (Option.any · _)
    (funext fun source => h.lookupIn_misses source column)

theorem lookupUnqualified_misses (b : Bindings) (column : String) :
    (r'.lookupUnqualified (f.bindings b) (f.name column)).misses
      = (r.lookupUnqualified b column).misses := by
  have htables : (f.bindings b).tables = b.tables.map f.table := rfl
  have hvisible : (f.bindings b).visible = b.visible.map f.subquery := rfl
  rw [Resolver.lookupUnqualified_misses, Resolver.lookupUnqualified_misses,
    htables, hvisible, List.isEmpty_map, List.all_map]
  refine congrArg _ (congrArg (List.all _) (funext fun table => ?_))
  have hsource := h.source? (f.fold_name table.name) b.visible
  have hname : (f.table table).name = f.name table.name := rfl
  rw [Function.comp_apply, hname, hsource, Option.any_map]
  exact congrArg (Option.any · _)
    (funext fun source => h.lookupIn_misses source column)

end Respelling.Links

end QueryAssist
