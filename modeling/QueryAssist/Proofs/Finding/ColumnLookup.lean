import QueryAssist.Finding.Reference
import QueryAssist.Proofs.Scope.Verdict

/-!
# Lookups by column lists

What a lookup in one source comes to can be read off the list of all its
columns. A column without a qualifier is looked up in one table after the
other, up to the first that has it or of which too little is known; that it is
missing is said only after all of them, so their order does not matter to
whether it is reported.
-/

namespace QueryAssist

open Text

/-! ## Names without repetitions -/

/-- The names that no earlier name of the list agrees with, ignoring the case of
ASCII letters. -/
def firstSpellings (names : List String) : List String :=
  (names.zipIdx.filter fun entry =>
    !(names.take entry.2).any (sameAscii · entry.1)).map Prod.fst

theorem sameAscii_trans {a b c : String} (hab : sameAscii a b = true)
    (hbc : sameAscii b c = true) : sameAscii a c = true := by
  rw [sameAscii_iff] at hab hbc ⊢
  rw [hab, hbc]

/-- Names are kept that agree neither with one that was seen nor with an
earlier one. -/
theorem dedupNames_eq_filter (seen names : List String) :
    dedupNames seen names
      = (names.zipIdx.filter fun entry =>
          !seen.any (sameAscii · entry.1)
            && !(names.take entry.2).any (sameAscii · entry.1)).map
            Prod.fst := by
  induction names generalizing seen with
  | nil => rfl
  | cons name names ih =>
    -- Behind the first name, an entry has one more name before it.
    have hshift : (name :: names).zipIdx
        = (name, 0)
          :: names.zipIdx.map fun entry => (entry.1, entry.2 + 1) := by
      rw [List.zipIdx_cons, List.zipIdx_succ]
    rw [hshift, List.filter_cons, List.filter_map, dedupNames]
    by_cases hseen : seen.any (sameAscii · name) = true
    · rw [if_pos hseen, if_neg (by simp [hseen]), ih, List.map_map]
      refine congrArg _ (List.filter_congr ?_)
      rintro ⟨other, place⟩ -
      -- Whatever agrees with the first name agrees with what was seen, so the
      -- first name makes no difference.
      have hfirst : sameAscii name other = true →
          seen.any (sameAscii · other) = true := by
        intro hsame
        obtain ⟨earlier, hmem, hearlier⟩ := List.any_eq_true.1 hseen
        exact List.any_eq_true.2 ⟨earlier, hmem, sameAscii_trans hearlier hsame⟩
      simp only [Function.comp_apply, List.take_succ_cons, List.any_cons]
      cases hsame : sameAscii name other with
      | false => simp
      | true => simp [hfirst hsame]
    · rw [if_neg hseen, if_pos (by simpa using hseen), ih, List.map_cons,
        List.map_map]
      refine congrArg _ (congrArg _ (List.filter_congr ?_))
      rintro ⟨other, place⟩ -
      simp only [Function.comp_apply, List.take_succ_cons, List.any_cons]
      cases sameAscii name other <;> simp

/-- Repeated names are left out, each at its later places. -/
theorem dedupNames_nil (names : List String) :
    dedupNames [] names = firstSpellings names := by
  rw [dedupNames_eq_filter]
  rfl

/-! ## Whether a column is reported -/

theorem Lookup.misses_iff (lookup : Lookup) :
    lookup.misses = true ↔
      ∃ sources available, lookup = .missing sources available := by
  cases lookup <;> simp

/-- An unknown column is reported iff its lookup misses it. -/
theorem ReferenceCheck.isSome_unknownColumn? (check : ReferenceCheck)
    (column : Token) (lookup : Lookup) :
    (check.unknownColumn? column lookup).isSome = lookup.misses := by
  cases lookup <;> rfl

namespace Resolver

variable (r : Resolver)

theorem lookupUnqualified_eq_missing_iff (bindings : Bindings)
    (column : String) :
    (∃ sources available,
        r.lookupUnqualified bindings column = .missing sources available) ↔
      bindings.tables ≠ [] ∧
        ∀ table ∈ bindings.tables, ∃ source,
          r.source? table.name bindings.visible = some source ∧
            ∃ sources available,
              r.lookupIn source column = .missing sources available := by
  rw [← Lookup.misses_iff, lookupUnqualified_misses]
  simp only [Bool.and_eq_true, Bool.not_eq_true', List.isEmpty_eq_false_iff,
    List.all_eq_true, Option.any_eq_true, Lookup.misses_iff, ne_eq]

/-- In which order the tables stand does not matter to a miss. -/
theorem lookupUnqualified_misses_of_perm {bindings : Bindings}
    {tables : List TableRef} (h : tables.Perm bindings.tables)
    (column : String) :
    (r.lookupUnqualified { bindings with tables } column).misses
      = (r.lookupUnqualified bindings column).misses := by
  rw [lookupUnqualified_misses, lookupUnqualified_misses, h.isEmpty_eq,
    h.all_eq]

end Resolver

/-- A lookup in one source finds the first of all its columns that has the name.
If there is none, too little is known unless the columns are all there are; and
then the lookup gives their names, each in its first spelling. Among the tables
of a scope a column is missing iff there are tables and each of them stands for
a source that lacks it; so the order of the tables does not matter to whether a
column is reported. -/
theorem lookups_are_decided_by_columns (r : Resolver) :
    (∀ source column,
      (∀ c,
          (r.sourceColumns source).columns.find?
                (fun c => sameAscii c.name column) = some c →
            r.lookupIn source column = .found source c) ∧
        ((∀ c ∈ (r.sourceColumns source).columns,
            sameAscii c.name column = false) →
          r.lookupIn source column = if (r.sourceColumns source).complete then
              .missing [source]
                (firstSpellings
                  ((r.sourceColumns source).columns.map ColumnRef.name))
            else .indeterminate)) ∧
    ∀ bindings : Bindings,
      (∀ column,
          (∃ sources available,
              r.lookupUnqualified bindings column
                = .missing sources available) ↔
            bindings.tables ≠ [] ∧
              ∀ table ∈ bindings.tables, ∃ source,
                r.source? table.name bindings.visible = some source ∧
                  ∃ sources available,
                    r.lookupIn source column = .missing sources available) ∧
        ∀ tables : List TableRef, tables.Perm bindings.tables →
          ∀ (check : ReferenceCheck) (column : Token),
            (check.unknownColumn? column
                (r.lookupUnqualified { bindings with tables }
                  column.name)).isSome
              = (check.unknownColumn? column
                (r.lookupUnqualified bindings column.name)).isSome := by
  refine ⟨?_, ?_⟩
  · intro source column
    refine ⟨?_, ?_⟩
    · intro c hfirst
      exact r.lookupIn_eq_found_iff.2 ⟨rfl, hfirst⟩
    · intro hnone
      have hmissing : r.columnIn? source column = none := by
        rw [Resolver.columnIn?, List.find?_eq_none]
        intro c hc
        simp [hnone c hc]
      rw [Resolver.lookupIn_eq_columnIn?, hmissing, dedupNames_nil]
  · intro bindings
    refine ⟨r.lookupUnqualified_eq_missing_iff bindings, ?_⟩
    intro tables hperm check column
    rw [check.isSome_unknownColumn?, check.isSome_unknownColumn?,
      r.lookupUnqualified_misses_of_perm hperm]

/-- A subquery that names a column which its wildcard gives again, read
beside a table. -/
def widenedQuery : Text :=
  "WITH a AS (SELECT id, t.* FROM t) SELECT z FROM a, t".toList

def widenedCheck : ReferenceCheck :=
  .ofDocument (Document.ofText widenedQuery)
    (.ofTables
      [{ name := "T", columns := [{ name := "ID" }, { name := "n" }] }])
    .postgresql

/-- The column `z` stands for nothing in the subquery, whose columns are all
known; it is reported, also if the table comes first. -/
theorem lookups_are_decided_by_columns_widenedQuery :
    ∃ s ∈ widenedCheck.resolver.subqueries,
      widenedCheck.resolver.lookupIn (.subquery s) "z"
          = .missing [.subquery s] ["id", "n"] ∧
        (widenedCheck.resolver.bindingsAt 41).tables.map (·.name) = ["a", "t"] ∧
        (widenedCheck.unknownColumn?
            { kind := .word, text := "z", start := 41, stop := 42 }
            (widenedCheck.resolver.lookupUnqualified
              { widenedCheck.resolver.bindingsAt 41 with
                tables := (widenedCheck.resolver.bindingsAt 41).tables.reverse }
              "z")).isSome = true := by
  have hfacts : ∃ s ∈ widenedCheck.resolver.subqueries,
      (widenedCheck.resolver.sourceColumns (.subquery s)).columns.map
            ColumnRef.name
          = ["id", "ID", "n"] ∧
        (widenedCheck.resolver.sourceColumns (.subquery s)).complete
          = true := by decide +kernel
  have hscope : (widenedCheck.resolver.bindingsAt 41).tables.map (·.name)
        = ["a", "t"] ∧
      (widenedCheck.unknownColumn?
          { kind := .word, text := "z", start := 41, stop := 42 }
          (widenedCheck.resolver.lookupUnqualified
            (widenedCheck.resolver.bindingsAt 41) "z")).isSome = true := by
    decide +kernel
  obtain ⟨s, hs, hnames, hcomplete⟩ := hfacts
  obtain ⟨hsource, hscopes⟩ :=
    lookups_are_decided_by_columns widenedCheck.resolver
  have hnone :
      ∀ c ∈ (widenedCheck.resolver.sourceColumns (.subquery s)).columns,
        sameAscii c.name "z" = false := by
    intro c hc
    have hname : c.name ∈ ["id", "ID", "n"] := hnames ▸ List.mem_map_of_mem hc
    revert hname
    generalize c.name = name
    revert name
    decide
  have hlookup := (hsource (.subquery s) "z").2 hnone
  rw [if_pos hcomplete, hnames] at hlookup
  refine ⟨s, hs, hlookup, hscope.1, ?_⟩
  rw [← hscope.2]
  exact (hscopes (widenedCheck.resolver.bindingsAt 41)).2 _
    (List.reverse_perm _) widenedCheck
    { kind := .word, text := "z", start := 41, stop := 42 }

end QueryAssist
