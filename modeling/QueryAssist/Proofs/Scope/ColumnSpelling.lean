import QueryAssist.Proofs.Scope.Verdict
import QueryAssist.Proofs.Text.UpperCase

/-!
# Spellings of columns

Tables are the same for all spellings of one upper-case form. Columns are not: a
lookup tells two spellings apart unless they differ in the case of ASCII letters
only, or neither names a column of the source.
-/

namespace QueryAssist

open Text

/-- The first of a name in two spellings. If the spellings are told apart at
all, no element has both. -/
theorem find?_sameAscii_eq_iff {α : Type} (name : α → String) (xs : List α)
    (a b : String) :
    (xs.find? fun x => sameAscii (name x) a)
        = (xs.find? fun x => sameAscii (name x) b) ↔
      foldAscii a = foldAscii b ∨
        ∀ x ∈ xs, foldAscii (name x) ≠ foldAscii a ∧
          foldAscii (name x) ≠ foldAscii b := by
  constructor
  · intro h
    cases hfind : xs.find? fun x => sameAscii (name x) a with
    | none =>
      right
      intro x hx
      have hb : (xs.find? fun x => sameAscii (name x) b) = none := by
        rw [← h, hfind]
      have hnota := List.find?_eq_none.1 hfind x hx
      have hnotb := List.find?_eq_none.1 hb x hx
      exact ⟨fun heq => hnota (sameAscii_iff.2 heq),
        fun heq => hnotb (sameAscii_iff.2 heq)⟩
    | some x =>
      left
      have hb : (xs.find? fun x => sameAscii (name x) b) = some x := by
        rw [← h, hfind]
      have hxa : sameAscii (name x) a = true := by
        simpa using List.find?_some hfind
      have hxb : sameAscii (name x) b = true := by
        simpa using List.find?_some hb
      rw [← sameAscii_iff.1 hxa, sameAscii_iff.1 hxb]
  · rintro (heq | hnone)
    · simp only [sameAscii, heq]
    · have hall : ∀ s, (∀ x ∈ xs, foldAscii (name x) ≠ foldAscii s) →
          (xs.find? fun x => sameAscii (name x) s) = none := by
        intro s hs
        refine List.find?_eq_none.2 fun x hx hsame => hs x hx ?_
        exact sameAscii_iff.1 hsame
      rw [hall a fun x hx => (hnone x hx).1, hall b fun x hx => (hnone x hx).2]

/-- Lookups in one source come to the same iff they find the same
column or none. -/
theorem Resolver.lookupIn_eq_iff (r : Resolver) (source : Source)
    (a b : String) :
    r.lookupIn source a = r.lookupIn source b ↔
      r.columnIn? source a = r.columnIn? source b := by
  rw [lookupIn_eq_columnIn?, lookupIn_eq_columnIn?]
  cases r.columnIn? source a with
  | none =>
    cases r.columnIn? source b with
    | none => simp
    | some c =>
      simp only [reduceCtorEq, iff_false]
      split <;> simp
  | some c =>
    cases r.columnIn? source b with
    | none =>
      simp only [reduceCtorEq, iff_false]
      split <;> simp
    | some d => simp

/-- Two spellings of a column come to the same in a source iff they differ in
the case of ASCII letters only, or no column of the source has either of them.
Of the spellings with one upper-case form these are all that are in ASCII, but
not all. Tables come to the same in all of them. -/
theorem column_spellings_agree_iff (r : Resolver) (source : Source)
    (a b : String) :
    (r.lookupIn source a = r.lookupIn source b ↔
        foldAscii a = foldAscii b ∨
          ∀ c ∈ (r.sourceColumns source).columns,
            foldAscii c.name ≠ foldAscii a ∧ foldAscii c.name ≠ foldAscii b) ∧
      (foldAscii a = foldAscii b → upper a = upper b) ∧
      ((∀ c ∈ a.toList ++ b.toList, c.toNat < 0x80) → upper a = upper b →
        foldAscii a = foldAscii b) ∧
      (upper a = upper b →
        ∀ catalog : Catalog, catalog.table? a = catalog.table? b) := by
  refine ⟨?_, ?_, ?_, table?_of_upper_eq⟩
  · rw [r.lookupIn_eq_iff]
    exact find?_sameAscii_eq_iff ColumnRef.name
      (r.sourceColumns source).columns a b
  · intro hfold
    rw [← upper_foldAscii, hfold, upper_foldAscii]
  · intro hascii hupper
    rw [← upper_of_isAscii fun c hc => hascii c (List.mem_append_left _ hc),
      hupper,
      upper_of_isAscii fun c hc => hascii c (List.mem_append_right _ hc)]

/-- A reading of the empty text, without a catalog. -/
def blankResolver : Resolver :=
  { document := Document.ofText [], catalog := none }

/-- A table with a column in ASCII and one with a letter outside. -/
def streetTable : Source :=
  .table { name := "T", columns := [{ name := "Id" }, { name := "straße" }] }

theorem column_spellings_agree_streetTable :
    blankResolver.lookupIn streetTable "iD"
        = blankResolver.lookupIn streetTable "ID" ∧
      blankResolver.lookupIn streetTable "STRAßE"
        = blankResolver.lookupIn streetTable "straße" ∧
      blankResolver.lookupIn streetTable "ſize"
        = blankResolver.lookupIn streetTable "SIZE" ∧
      (upper "STRAßE" = upper "STRASSE" ∧
        blankResolver.lookupIn streetTable "STRAßE"
          ≠ blankResolver.lookupIn streetTable "STRASSE") := by
  refine ⟨?_, ?_, ?_, by decide +kernel, ?_⟩
  · exact (column_spellings_agree_iff _ _ _ _).1.2 (Or.inl (by decide +kernel))
  · exact (column_spellings_agree_iff _ _ _ _).1.2 (Or.inl (by decide +kernel))
  · exact (column_spellings_agree_iff _ _ _ _).1.2 (Or.inr (by decide +kernel))
  · rw [ne_eq, (column_spellings_agree_iff _ _ _ _).1]
    decide +kernel

/-- A table with one column, which has a letter outside ASCII. -/
def accentedTable : Table := { name := "T", columns := [{ name := "é" }] }

/-- Both spellings of the letter have one upper-case form, but the column is
found in one of them and missing in the other. -/
theorem column_spelling_is_missed_accentedTable :
    upper "é" = upper "É" ∧
      blankResolver.lookupIn (.table accentedTable) "é"
        = .found (.table accentedTable) (.table accentedTable { name := "é" }) ∧
      blankResolver.lookupIn (.table accentedTable) "É"
        = .missing [.table accentedTable] ["é"] := by
  decide +kernel

end QueryAssist
