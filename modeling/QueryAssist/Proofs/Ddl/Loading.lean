import QueryAssist.Ddl.Load

/-!
# Loading whole or not at all

While a script is loaded, the catalog changes piece by piece, and whether
loading fails is decided at the end by a counter. The counter and the catalog
move together: where no statement was counted, the catalog is still the one that
loading began with. So a failure leaves the catalog as it was, and a success has
applied exactly the statements that it counts.
-/

namespace QueryAssist.Ddl

/-! ## Pieces -/

/-- The statements of those pieces that can be read on their own,
piece by piece. -/
def readableStatements (read : StatementReader)
    (pieces : List Text) : List Statement :=
  (pieces.filterMap fun piece => read (Text.trim piece)).flatten

theorem readableStatements_cons (read : StatementReader) (piece : Text)
    (rest : List Text) :
    readableStatements read (piece :: rest)
      = (read (Text.trim piece)).getD [] ++ readableStatements read rest := by
  rw [readableStatements, List.filterMap_cons]
  cases read (Text.trim piece) <;> rfl

theorem readableStatements_eq_nil_iff {read : StatementReader}
    {pieces : List Text} :
    readableStatements read pieces = [] ↔
      ∀ piece ∈ pieces, ∀ statements,
        read (Text.trim piece) = some statements → statements = [] := by
  rw [readableStatements, List.flatten_eq_nil_iff]
  constructor
  · intro h piece hpiece statements hread
    exact h statements (List.mem_filterMap.2 ⟨piece, hpiece, hread⟩)
  · intro h statements hmem
    obtain ⟨piece, hpiece, hread⟩ := List.mem_filterMap.1 hmem
    exact h piece hpiece statements hread

namespace Loading

theorem applyAll_append (loading : Loading) (first second : List Statement) :
    loading.applyAll (first ++ second)
      = (loading.applyAll first).applyAll second := by
  simp only [applyAll, List.foldl_append, List.length_append, Nat.add_assoc]

/-- The catalog moves only together with the counter. -/
theorem catalog_applyAll_of_applied {loading : Loading}
    {statements : List Statement}
    (h : (loading.applyAll statements).applied = loading.applied) :
    (loading.applyAll statements).catalog = loading.catalog := by
  have hnone : statements = [] :=
    List.eq_nil_of_length_eq_zero (Nat.add_left_cancel h)
  rw [hnone]
  rfl

theorem applyPiece_eq (read : StatementReader) (loading : Loading)
    (piece : Text) :
    loading.applyPiece read piece
      = loading.applyAll ((read (Text.trim piece)).getD []) := by
  rw [applyPiece]
  cases read (Text.trim piece) <;> rfl

/-- The pieces of a script, one after the other, apply what can be
read of them. -/
theorem foldl_applyPiece (read : StatementReader) (loading : Loading)
    (pieces : List Text) :
    pieces.foldl (applyPiece read) loading
      = loading.applyAll (readableStatements read pieces) := by
  induction pieces generalizing loading with
  | nil => rfl
  | cons piece rest ih =>
    rw [List.foldl_cons, ih, applyPiece_eq, readableStatements_cons,
      applyAll_append]

end Loading

/-! ## Scripts -/

/-- The statements of a script: all of them if it can be read as a whole, and
else those of the pieces that can be read. -/
def loadedStatements (read : StatementReader)
    (script : Text) : List Statement :=
  (read script).getD (readableStatements read (splitStatements script))

/-- A script is not blank, and neither the whole of it nor a piece gives
a statement. -/
def Unloadable (read : StatementReader) (script : Text) : Prop :=
  read script = none ∧
    (∀ piece ∈ splitStatements script, ∀ statements,
      read (Text.trim piece) = some statements → statements = []) ∧
    Text.allBlank script = false

section

variable {read : StatementReader} {catalog : Catalog} {script : Text}

/-- Loading applies the statements of a script in order. -/
theorem catalog_loadInto (read : StatementReader) (catalog : Catalog)
    (script : Text) :
    (loadInto read catalog script).catalog
      = (loadedStatements read script).foldl Statement.apply catalog := by
  rw [loadInto, loadedStatements]
  cases read script with
  | some statements => rfl
  | none =>
    simp only [Loading.foldl_applyPiece, Loading.applyAll, Option.getD_none]

theorem count_loadInto_eq_none_iff :
    (loadInto read catalog script).count = none ↔ Unloadable read script := by
  rw [loadInto, Unloadable]
  cases read script with
  | some statements => simp
  | none =>
    simp only [Loading.foldl_applyPiece, Loading.applyAll, Nat.zero_add]
    rw [ite_eq_left_iff]
    simp [readableStatements_eq_nil_iff]

theorem length_of_count_loadInto {count : Nat}
    (h : (loadInto read catalog script).count = some count) :
    (loadedStatements read script).length = count := by
  rw [loadInto] at h
  rw [loadedStatements]
  cases hread : read script with
  | some statements =>
    rw [hread] at h
    simpa [Loading.applyAll] using h
  | none =>
    rw [hread] at h
    simp only [Loading.foldl_applyPiece, Loading.applyAll, Nat.zero_add] at h
    split at h
    · cases h
    · exact Option.some.inj h

/-- A failure is told by the counter, and the catalog has not moved
without it. -/
theorem catalog_of_unloadable (h : Unloadable read script) :
    (loadInto read catalog script).catalog = catalog := by
  obtain ⟨hwhole, hpieces, -⟩ := h
  have hnone : readableStatements read (splitStatements script) = [] :=
    readableStatements_eq_nil_iff.2 hpieces
  rw [loadInto, hwhole]
  simp only [Loading.foldl_applyPiece]
  exact Loading.catalog_applyAll_of_applied (by rw [hnone]; rfl)

end

/-- Loading a script with any reader of statements either fails, which leaves
the catalog as it was, or applies in order the statements that it counts: those
of the whole script if it can be read, and else those of its pieces that can be
read on their own. It fails exactly on a script that is not blank and gives no
statement either way. -/
theorem scripts_load_whole_or_not_at_all (read : StatementReader)
    (catalog : Catalog) (script : Text) :
    let loaded := loadInto read catalog script
    (loaded.count = none → loaded.catalog = catalog) ∧
    (∀ count, loaded.count = some count →
        (loadedStatements read script).length = count ∧
          loaded.catalog
            = (loadedStatements read script).foldl Statement.apply catalog) ∧
    (loaded.count = none ↔
      read script = none ∧
        (∀ piece ∈ splitStatements script, ∀ statements,
          read (Text.trim piece) = some statements → statements = []) ∧
        Text.allBlank script = false) := by
  intro loaded
  refine ⟨?_, ?_, count_loadInto_eq_none_iff⟩
  · intro hfailed
    exact catalog_of_unloadable (count_loadInto_eq_none_iff.1 hfailed)
  · intro count hcount
    exact ⟨length_of_count_loadInto hcount,
      catalog_loadInto read catalog script⟩

/-- The reader that reads the given texts, each as its statements, and no
other text. -/
def readerOf (answers : List (Text × List Statement)) : StatementReader :=
  fun text => answers.lookup text

/-- A table, a piece that cannot be read, and a comment on the table. -/
def patchyScript : Text :=
  "CREATE TABLE t (g INT); garbage; COMMENT ON TABLE t IS 'x'".toList

/-- The table and the comment can be read on their own, and nothing else. -/
def patchyReader : StatementReader :=
  readerOf
    [("CREATE TABLE t (g INT)".toList,
        [.createTable "t" [{ name := "g", dataType := "INT" }] []]),
      ("COMMENT ON TABLE t IS 'x'".toList, [.comment .table "t" (some "x")])]

/-- A script of which nothing can be read. -/
def garbledScript : Text := "garbage; nonsense".toList

/-- Two pieces of the first script are loaded; the second script then fails. -/
theorem scripts_load_whole_or_not_at_all_patchyScript :
    let loaded := loadInto patchyReader (emptyCatalog .postgresql) patchyScript
    let failed := loadInto patchyReader loaded.catalog garbledScript
    patchyReader patchyScript = none ∧ loaded.count = some 2 ∧
      (loadedStatements patchyReader patchyScript).length = 2 ∧
      loaded.catalog.tables.map (fun t => (t.name, t.description))
        = [("t", some "x")] ∧
      failed.count = none ∧ failed.catalog = loaded.catalog := by
  intro loaded failed
  have hcount : loaded.count = some 2 := by decide +kernel
  have hfailed : failed.count = none := by decide +kernel
  have hfirst := scripts_load_whole_or_not_at_all patchyReader
    (emptyCatalog .postgresql) patchyScript
  have hsecond := scripts_load_whole_or_not_at_all patchyReader loaded.catalog
    garbledScript
  exact ⟨by decide +kernel, hcount, (hfirst.2.1 2 hcount).1, by decide +kernel,
    hfailed, hsecond.1 hfailed⟩

end QueryAssist.Ddl
