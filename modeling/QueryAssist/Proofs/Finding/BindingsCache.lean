import QueryAssist.Finding.Reference
import QueryAssist.Proofs.Scope.Span

/-!
# Bindings met in a span

A reference is resolved with the bindings of the first reference met in its
span. These are its own bindings iff the two see the same definitions, which can
fail only outside bodies and the main query. So columns without a qualifier are
always resolved with their own bindings, and columns with one are as long as the
references of each span see the same definitions.
-/

namespace QueryAssist

namespace ReferenceCheck

variable {check : ReferenceCheck} {text : Text} {asked : List Nat}
  {met : List Bindings}

/-! ## The cache -/

/-- The bindings met after some offsets are asked for, one after the other. -/
def metAfter (check : ReferenceCheck) (asked : List Nat) : List Bindings :=
  asked.foldl (fun met offset => (check.bindingsVia met offset).2) []

/-- The first of some offsets in the span of an offset, or else that offset. -/
def firstAlike (check : ReferenceCheck) (asked : List Nat)
    (offset : Nat) : Nat :=
  (asked.find? (check.resolver.spanAt · == check.resolver.spanAt offset)).getD
    offset

theorem spanAt_firstAlike (check : ReferenceCheck) (asked : List Nat)
    (offset : Nat) :
    check.resolver.spanAt (check.firstAlike asked offset)
      = check.resolver.spanAt offset := by
  unfold firstAlike
  rcases hfind :
      asked.find? (check.resolver.spanAt · == check.resolver.spanAt offset)
    with _ | first
  · rfl
  · have hbeq := List.find?_some hfind
    simpa using hbeq

/-- Offsets that come later do not matter to one that is there itself. -/
theorem firstAlike_append (check : ReferenceCheck) (asked later : List Nat)
    (offset : Nat) :
    check.firstAlike (asked ++ offset :: later) offset
      = check.firstAlike asked offset := by
  unfold firstAlike
  rw [List.find?_append, List.find?_cons_of_pos (by simp)]
  rcases asked.find? (check.resolver.spanAt · == check.resolver.spanAt offset)
      with _ | first <;> rfl

/-- The bindings met for a span are those of the first offset
asked for in it. -/
def Remembers (check : ReferenceCheck) (asked : List Nat)
    (met : List Bindings) : Prop :=
  ∀ span,
    met.find? (·.span == span)
      = (asked.find? (check.resolver.spanAt · == span)).map
        check.resolver.bindingsAt

theorem remembers_nil (check : ReferenceCheck) : check.Remembers [] [] :=
  fun _ => rfl

theorem bindingsVia_eq (h : check.Remembers asked met) (offset : Nat) :
    (check.bindingsVia met offset).1
      = check.resolver.bindingsAt (check.firstAlike asked offset) := by
  have hspan := h (check.resolver.spanAt offset)
  unfold bindingsVia firstAlike
  unfold Resolver.spanAt at hspan ⊢
  simp only [hspan]
  rcases asked.find? _ with _ | first <;> rfl

/-- One more offset asked for. -/
theorem Remembers.step (h : check.Remembers asked met) (offset : Nat) :
    check.Remembers (asked ++ [offset]) (check.bindingsVia met offset).2 := by
  intro span
  have hown : (check.resolver.bindingsAt offset).span
      = check.resolver.spanAt offset := rfl
  have hmet := h (check.resolver.spanAt offset)
  rw [List.find?_append, List.find?_singleton]
  unfold bindingsVia
  rcases hfind : met.find? (·.span == check.resolver.spanAt offset)
    with _ | bindings
  -- A new span: its bindings go to the end, where the offset goes too.
  · rw [Resolver.spanAt] at hfind
    simp only [hfind]
    rw [List.find?_append, List.find?_singleton, h span, hown]
    rcases asked.find? (check.resolver.spanAt · == span) with _ | first
    · by_cases heq : check.resolver.spanAt offset == span <;> simp [heq]
    · simp
  -- A span met before: the offset is not the first in it.
  · rw [hfind] at hmet
    rw [Resolver.spanAt] at hfind
    simp only [hfind]
    rw [h span]
    by_cases heq : check.resolver.spanAt offset = span
    · rw [← heq]
      rcases hfirst :
          asked.find? (check.resolver.spanAt · == check.resolver.spanAt offset)
        with _ | first
      · rw [hfirst] at hmet
        cases hmet
      · rfl
    · simp [heq]

theorem remembers_metAfter (check : ReferenceCheck) (asked : List Nat) :
    check.Remembers asked (check.metAfter asked) := by
  have hrun : ∀ (later before : List Nat) (met : List Bindings),
      check.Remembers before met →
        check.Remembers (before ++ later)
          (later.foldl (fun met offset => (check.bindingsVia met offset).2)
            met) := by
    intro later
    induction later with
    | nil =>
      intro before met h
      rwa [List.append_nil]
    | cons offset later ih =>
      intro before met h
      have := ih (before ++ [offset]) _ (h.step offset)
      rwa [List.append_assoc] at this
  exact hrun asked [] [] (remembers_nil check)

/-! ## Checks by any bindings -/

/-- Findings for qualified columns when each is resolved with the bindings given
for its offset. -/
def unknownQualifiedBy (check : ReferenceCheck) (bindingsFor : Nat → Bindings)
    (runs : List QualifiedRun) : List Finding :=
  runs.flatMap fun run =>
    match check.referencedColumn? run with
    | none => []
    | some column =>
      (check.unknownColumn? column
        (check.resolver.lookupQualified (bindingsFor column.start) run.qualifier
          column.name)).toList

/-- Findings for columns without a qualifier when each is resolved with the
bindings given for its offset. -/
def unknownBareBy (check : ReferenceCheck) (bindingsFor : Nat → Bindings)
    (previous : Option Token) : List Token → List Finding
  | [] => []
  | t :: ts =>
    (if check.isBareColumn check.definedNames previous t ts.head?
        && check.checksBareColumnsAt t.start then
      (check.unknownColumn? t
        (check.resolver.lookupUnqualified (bindingsFor t.start) t.name)).toList
    else []) ++ check.unknownBareBy bindingsFor (some t) ts

/-- Unknown columns when each is resolved with the bindings given for
its offset. -/
def unknownColumnsBy (check : ReferenceCheck)
    (bindingsFor : Nat → Bindings) : List Finding :=
  check.unknownQualifiedBy bindingsFor (qualifiedRuns 0 none check.tokens)
    ++ check.unknownBareBy bindingsFor none check.tokens

/-- Where the columns of runs start. -/
def columnStarts (check : ReferenceCheck)
    (runs : List QualifiedRun) : List Nat :=
  runs.filterMap fun run => (check.referencedColumn? run).map Token.start

/-- Where the qualified columns of the document start. -/
def qualifiedStarts (check : ReferenceCheck) : List Nat :=
  check.columnStarts (qualifiedRuns 0 none check.tokens)

/-! ## The checks by the bindings met -/

/-- Each qualified column is resolved with the bindings of the first one
in its span. -/
theorem unknownQualified_eq (h : check.Remembers asked met)
    (runs : List QualifiedRun) :
    (check.unknownQualified met runs).1
        = check.unknownQualifiedBy
          (fun offset =>
            check.resolver.bindingsAt
              (check.firstAlike (asked ++ check.columnStarts runs) offset))
          runs ∧
      check.Remembers (asked ++ check.columnStarts runs)
        (check.unknownQualified met runs).2 := by
  induction runs generalizing asked met with
  | nil => simpa [unknownQualified, unknownQualifiedBy, columnStarts] using h
  | cons run runs ih =>
    rcases hcolumn : check.referencedColumn? run with _ | column
    · have hstarts : check.columnStarts (run :: runs)
          = check.columnStarts runs := by
        simp [columnStarts, hcolumn]
      rw [hstarts, unknownQualified, hcolumn, unknownQualifiedBy,
        List.flatMap_cons, hcolumn]
      exact ih h
    · have hstarts : check.columnStarts (run :: runs)
          = column.start :: check.columnStarts runs := by
        simp [columnStarts, hcolumn]
      have hfirst :=
        firstAlike_append check asked (check.columnStarts runs) column.start
      obtain ⟨hfindings, hmet⟩ := ih (h.step column.start)
      rw [List.append_assoc, List.singleton_append] at hfindings hmet
      rw [hstarts, unknownQualified, hcolumn, unknownQualifiedBy,
        List.flatMap_cons, hcolumn]
      refine ⟨?_, hmet⟩
      simp only [bindingsVia_eq h, hfindings, hfirst]
      rfl

/-- Each column without a qualifier is resolved with its own bindings. -/
theorem unknownBare_eq (htext : check.resolver.document = Document.ofText text)
    (h : check.Remembers asked met) (previous : Option Token)
    (tokens : List Token) :
    check.unknownBare check.definedNames met previous tokens
      = check.unknownBareBy check.resolver.bindingsAt previous tokens := by
  induction tokens generalizing asked met previous with
  | nil => rfl
  | cons t ts ih =>
    unfold unknownBare unknownBareBy
    by_cases hcheck : (check.isBareColumn check.definedNames previous t ts.head?
        && check.checksBareColumnsAt t.start) = true
    · have hspan := spanAt_firstAlike check asked t.start
      have hscope : check.resolver.scopeAt t.start ≠ .unstructured := by
        intro hscope
        simp [checksBareColumnsAt, hscope] at hcheck
      -- The scope is a body or the main query, where one span has one set of
      -- bindings.
      have hown : check.resolver.bindingsAt (check.firstAlike asked t.start)
          = check.resolver.bindingsAt t.start := by
        refine (Resolver.bindingsAt_eq_iff htext hspan).2 ?_
        intro hfirst
        exact absurd (Resolver.scopeAt_of_spanAt_eq htext hspan ▸ hfirst) hscope
      rw [if_pos hcheck, if_pos hcheck, ← ih (h.step t.start) (some t)]
      simp only [bindingsVia_eq h, hown]
    · rw [if_neg hcheck, if_neg hcheck, List.nil_append]
      exact ih h (some t)

theorem unknownColumns_eq
    (htext : check.resolver.document = Document.ofText text) :
    check.unknownColumns
      = check.unknownQualifiedBy
          (fun offset =>
            check.resolver.bindingsAt
              (check.firstAlike check.qualifiedStarts offset))
          (qualifiedRuns 0 none check.tokens)
        ++ check.unknownBareBy check.resolver.bindingsAt none check.tokens := by
  obtain ⟨hqualified, hmet⟩ :=
    unknownQualified_eq (remembers_nil check)
      (qualifiedRuns 0 none check.tokens)
  have hbare := unknownBare_eq htext hmet none check.tokens
  unfold unknownColumns
  simp only [hqualified, hbare]
  rfl

theorem unknownQualifiedBy_congr {bindingsFor bindingsFor' : Nat → Bindings}
    {runs : List QualifiedRun}
    (h : ∀ offset ∈ check.columnStarts runs,
      bindingsFor offset = bindingsFor' offset) :
    check.unknownQualifiedBy bindingsFor runs
      = check.unknownQualifiedBy bindingsFor' runs := by
  unfold unknownQualifiedBy
  rw [List.flatMap_def, List.flatMap_def]
  refine congrArg List.flatten (List.map_congr_left ?_)
  intro run hrun
  rcases hcolumn : check.referencedColumn? run with _ | column
  · rfl
  · have hstart : column.start ∈ check.columnStarts runs :=
      List.mem_filterMap.2 ⟨run, hrun, by rw [hcolumn]; rfl⟩
    simp only [h _ hstart]

/-- The unknown columns are those found with fresh bindings if the qualified
columns of each span see the same definitions. -/
theorem unknownColumns_eq_fresh
    (htext : check.resolver.document = Document.ofText text)
    (halike : ∀ offset ∈ check.qualifiedStarts,
      check.resolver.SeesAlike (check.firstAlike check.qualifiedStarts offset)
        offset) :
    check.unknownColumns
      = check.unknownColumnsBy check.resolver.bindingsAt := by
  have hown : ∀ offset ∈ check.qualifiedStarts,
      check.resolver.bindingsAt (check.firstAlike check.qualifiedStarts offset)
        = check.resolver.bindingsAt offset := by
    intro offset hoffset
    exact
      (Resolver.bindingsAt_eq_iff htext (spanAt_firstAlike check _ offset)).2
      (halike offset hoffset)
  rw [unknownColumns_eq htext, unknownColumnsBy, unknownQualifiedBy_congr hown]

end ReferenceCheck

open ReferenceCheck

/-- The bindings used for an offset are those of the first offset asked for in
its span. They have the scope, span, tables and aliases of the offset; they have
its subqueries too iff the two offsets see the same definitions, which depends
on the offsets only outside bodies and the main query. So the unknown columns
are those found with the first bindings of each span for qualified columns and
with fresh bindings for all others, and if the qualified columns of each span
see the same definitions, those found with fresh bindings throughout. -/
theorem bindings_met_are_fresh_iff (text : Text) (catalog : Catalog)
    (dialect : Dialect) :
    let check :=
      ReferenceCheck.ofDocument (Document.ofText text) catalog dialect
    let fresh := check.resolver.bindingsAt
    (∀ (asked : List Nat) (offset : Nat),
      let first := check.firstAlike asked offset
      let used := (check.bindingsVia (check.metAfter asked) offset).1
      used = { fresh offset with visible := (fresh first).visible } ∧
          (used = fresh offset ↔
            (check.resolver.scopeAt offset = .unstructured →
              ∀ s ∈ check.resolver.subqueries,
                s.stop ≤ first ↔ s.stop ≤ offset))) ∧
      check.unknownColumns
          = check.unknownQualifiedBy
              (fun offset =>
                fresh (check.firstAlike check.qualifiedStarts offset))
              (qualifiedRuns 0 none check.tokens)
            ++ check.unknownBareBy fresh none check.tokens ∧
      ((∀ offset ∈ check.qualifiedStarts,
          check.resolver.SeesAlike
            (check.firstAlike check.qualifiedStarts offset) offset) →
        check.unknownColumns = check.unknownColumnsBy fresh) := by
  intro check fresh
  have htext : check.resolver.document = Document.ofText text := rfl
  refine ⟨?_, unknownColumns_eq htext, unknownColumns_eq_fresh htext⟩
  intro asked offset first used
  have hused : used = fresh first :=
    bindingsVia_eq (remembers_metAfter check asked) offset
  have hspan : check.resolver.spanAt first = check.resolver.spanAt offset :=
    spanAt_firstAlike check asked offset
  rw [hused]
  refine ⟨Resolver.bindingsAt_of_spanAt_eq htext hspan, ?_⟩
  rw [Resolver.bindingsAt_eq_iff htext hspan, Resolver.SeesAlike,
    Resolver.scopeAt_of_spanAt_eq htext hspan]

/-- Two subqueries inside brackets: what comes before the last definition is
neither in the main query nor in a body. -/
def bracketedQuery : Text :=
  ("SELECT s.x FROM (WITH a AS (SELECT id FROM t) SELECT a.bad FROM a) s, "
    ++ "(WITH b AS (SELECT id FROM t) SELECT id FROM b)").toList

def oneTable : Catalog :=
  .ofTables [{ name := "T", columns := [{ name := "id" }] }]

def bracketedCheck : ReferenceCheck :=
  .ofDocument (Document.ofText bracketedQuery) oneTable .postgresql

/-- The first reference stands before the definition that the second one names,
so the second is not resolved; with its own bindings its column is unknown. -/
theorem bindings_met_differ_bracketedQuery :
    bracketedCheck.qualifiedStarts = [9, 55] ∧
      (bracketedCheck.bindingsVia (bracketedCheck.metAfter [9]) 55).1
        ≠ bracketedCheck.resolver.bindingsAt 55 ∧
      bracketedCheck.unknownColumns = [] ∧
      (bracketedCheck.unknownColumnsBy bracketedCheck.resolver.bindingsAt).map
          (fun f => (f.problem, f.span.offset))
        = [(.unknownColumn "bad" ["subquery A"] ["id"], 55)] := by
  decide +kernel

/-- A query whose main query and body both have two qualified columns, one of
them unknown. -/
def plainQuery : Text :=
  "WITH a AS (SELECT t.id, t.no FROM t) SELECT a.id, a.bad FROM a".toList

theorem bindings_met_are_fresh_plainQuery :
    let check :=
      ReferenceCheck.ofDocument (Document.ofText plainQuery) oneTable
        .postgresql
    check.unknownColumns = check.unknownColumnsBy check.resolver.bindingsAt ∧
      check.unknownColumns.map (fun f => (f.problem, f.span.offset))
        = [(.unknownColumn "no" ["table T"] ["id"], 26),
          (.unknownColumn "bad" ["subquery A"] ["id", "no"], 52)] := by
  intro check
  obtain ⟨-, -, hfresh⟩ :=
    bindings_met_are_fresh_iff plainQuery oneTable .postgresql
  have hscopes : ∀ offset ∈ check.qualifiedStarts,
      check.resolver.scopeAt (check.firstAlike check.qualifiedStarts offset)
        ≠ .unstructured := by
    decide +kernel
  refine ⟨hfresh ?_, by decide +kernel⟩
  intro offset hoffset hscope
  exact absurd hscope (hscopes offset hoffset)

end QueryAssist
