import QueryAssist.Proofs.Finding.BindingsCache
import QueryAssist.Proofs.Scope.Verdict

/-!
# The columns that lookups miss

The findings for unknown columns are one finding for each column of the document
whose lookup misses it. What the lookups say beyond that goes into the wording
of the findings only.
-/

namespace QueryAssist

/-- Kind, severity and place of a finding: all that it is but its wording. -/
def Finding.mark (f : Finding) : String × Severity × Span :=
  (f.code, f.severity, f.span)

/-- The mark of an unknown column. -/
def Token.missedMark (text : Text) (t : Token) : String × Severity × Span :=
  ("E0002", .warning, .locate text t.start (t.stop - t.start))

namespace ReferenceCheck

variable (check : ReferenceCheck)

/-- The columns with a qualifier, each with its qualifier. -/
def qualifiedColumns : List (String × Token) :=
  (qualifiedRuns 0 none check.tokens).filterMap fun run =>
    (check.referencedColumn? run).map (run.qualifier, ·)

/-- The columns without a qualifier in `tokens`, which follow `previous`, as far
as they are checked. -/
def bareColumns (previous : Option Token) : List Token → List Token
  | [] => []
  | t :: ts =>
    if check.isBareColumn check.definedNames previous t ts.head?
      && check.checksBareColumnsAt t.start then
      t :: bareColumns (some t) ts
    else bareColumns (some t) ts

/-- Whether a column with a qualifier is missed with the first bindings
of its span. -/
def missesQualified (column : String × Token) : Bool :=
  (check.resolver.lookupQualified
    (check.resolver.bindingsAt
      (check.firstAlike check.qualifiedStarts column.2.start)) column.1
    column.2.name).misses

/-- Whether a column without a qualifier is missed. -/
def missesBare (t : Token) : Bool :=
  (check.resolver.lookupUnqualified (check.resolver.bindingsAt t.start)
    t.name).misses

/-- The columns that are missed, first those with a qualifier. -/
def missedColumns : List Token :=
  (check.qualifiedColumns.filter check.missesQualified).map Prod.snd
    ++ (check.bareColumns none check.tokens).filter check.missesBare

variable {check}

theorem qualifiedStarts_eq :
    check.qualifiedStarts = check.qualifiedColumns.map (·.2.start) := by
  rw [qualifiedStarts, columnStarts, qualifiedColumns, List.map_filterMap]
  simp only [Option.map_map]
  rfl

theorem unknownColumn?_mark (t : Token) (lookup : Lookup) :
    (check.unknownColumn? t lookup).toList.map Finding.mark
      = if lookup.misses then [t.missedMark check.text] else [] := by
  cases lookup <;> rfl

theorem unknownQualifiedBy_mark (bindingsFor : Nat → Bindings)
    (runs : List QualifiedRun) :
    (check.unknownQualifiedBy bindingsFor runs).map Finding.mark
      = ((runs.filterMap fun run =>
        (check.referencedColumn? run).map (run.qualifier, ·)).filter
        fun column =>
          (check.resolver.lookupQualified (bindingsFor column.2.start) column.1
            column.2.name).misses).map fun column =>
            column.2.missedMark check.text := by
  induction runs with
  | nil => rfl
  | cons run runs ih =>
    rw [unknownQualifiedBy] at ih ⊢
    rw [List.flatMap_cons, List.map_append, ih, List.filterMap_cons]
    cases check.referencedColumn? run with
    | none => rfl
    | some column =>
      simp only [Option.map_some, List.filter_cons, unknownColumn?_mark]
      split <;> simp

theorem unknownBareBy_mark (previous : Option Token) (tokens : List Token) :
    (check.unknownBareBy check.resolver.bindingsAt previous tokens).map
        Finding.mark
      = ((check.bareColumns previous tokens).filter check.missesBare).map
        (Token.missedMark check.text) := by
  induction tokens generalizing previous with
  | nil => rfl
  | cons t ts ih =>
    rw [unknownBareBy, bareColumns, List.map_append, ih]
    split
    · rw [unknownColumn?_mark, List.filter_cons, missesBare]
      split <;> rfl
    · rfl

/-- One finding for each missed column, in order. -/
theorem unknownColumns_mark {text : Text}
    (htext : check.resolver.document = Document.ofText text) :
    check.unknownColumns.map Finding.mark
      = check.missedColumns.map (Token.missedMark text) := by
  have hown : check.text = text := by rw [ReferenceCheck.text, htext]; rfl
  rw [unknownColumns_eq htext, List.map_append, unknownQualifiedBy_mark,
    unknownBareBy_mark, missedColumns, List.map_append, List.map_map, hown]
  rfl

/-- The findings for unknown columns start where the missed columns do. -/
theorem unknownColumns_offset {text : Text}
    (htext : check.resolver.document = Document.ofText text) :
    check.unknownColumns.map (·.span.offset)
      = check.missedColumns.map Token.start := by
  have hmark :=
    congrArg (List.map fun mark => mark.2.2.offset) (unknownColumns_mark htext)
  rw [List.map_map, List.map_map] at hmark
  exact hmark

end ReferenceCheck

end QueryAssist
