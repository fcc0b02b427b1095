import QueryAssist.Proofs.Finding.Placement
import QueryAssist.Proofs.Finding.Respelling
import QueryAssist.Proofs.Text.Contents

/-!
# Findings do not depend on the contents of comments and literals

Every check reads the masked text and its tokens. The text itself is used to
find the line and the columns of a span, for the wording of renamed expressions,
which no finding tells, and to look for an open literal, which without
backslashes the masked text shows as well. So two texts with the same masked
form have the same findings on the same lines.
-/

namespace QueryAssist

open Text

/-! ## Checks that need no catalog -/

namespace Finding

variable (text other : Text)

theorem unbalancedParens_notice (clean : Text) :
    (unbalancedParens other clean).map (notice 0)
      = (unbalancedParens text clean).map (notice 0) := by
  simp only [unbalancedParens, List.map_append, List.map_map]
  rfl

theorem unexpectedCommas_notice (tokens : List Token) :
    (unexpectedCommas other tokens).map (notice 0)
      = (unexpectedCommas text tokens).map (notice 0) := by
  induction tokens with
  | nil => rfl
  | cons t rest ih =>
    rw [unexpectedCommas, unexpectedCommas, List.map_append, List.map_append,
      ih]
    split
    · cases clauseInFront rest with
      | none => rfl
      | some clause => rfl
    · rfl

theorem duplicateCommas_notice (tokens : List Token) :
    (duplicateCommas other tokens).map (notice 0)
      = (duplicateCommas text tokens).map (notice 0) := by
  simp only [duplicateCommas, List.map_map]
  rfl

theorem emptySelects_notice (tokens : List Token) :
    (emptySelects other tokens).map (notice 0)
      = (emptySelects text tokens).map (notice 0) := by
  simp only [emptySelects, List.map_map]
  rfl

theorem missingCommasIn_notice (before : Token) (depth : Nat)
    (tokens : List Token) :
    (missingCommasIn other before depth tokens).map (notice 0)
      = (missingCommasIn text before depth tokens).map (notice 0) := by
  induction tokens generalizing before depth with
  | nil => rfl
  | cons t rest ih =>
    unfold missingCommasIn
    split
    · exact ih t (depth + 1)
    · split
      · rfl
      · exact ih t (depth - 1)
    · rfl
    · split
      · rfl
      · simp only [List.map_append, ih]
        refine congrArg (· ++ _) ?_
        cases rest with
        | nil => rfl
        | cons second more =>
          simp only
          split <;> rfl

theorem missingCommas_notice (tokens : List Token) :
    (missingCommas other tokens).map (notice 0)
      = (missingCommas text tokens).map (notice 0) := by
  induction tokens with
  | nil => rfl
  | cons t rest ih =>
    rw [missingCommas, missingCommas, List.map_append, List.map_append, ih]
    split
    · rw [missingCommasIn_notice text other]
    · rfl

theorem incompleteReferences_notice (tokens : List Token) :
    (incompleteReferences other tokens).map (notice 0)
      = (incompleteReferences text tokens).map (notice 0) := by
  induction tokens with
  | nil => rfl
  | cons t rest ih =>
    unfold incompleteReferences
    rw [List.map_append, List.map_append, ih]
    refine congrArg (· ++ _) ?_
    cases rest with
    | nil => rfl
    | cons dot more =>
      simp only
      split <;> rfl

variable {text other}

theorem unclosedStrings_notice (htext : '\\' ∉ text) (hother : '\\' ∉ other)
    (h : other.sanitize = text.sanitize) :
    (unclosedStrings other).map (notice 0)
      = (unclosedStrings text).map (notice 0) := by
  rw [unclosedStrings, unclosedStrings, openQuote_maskComments hother,
    openQuote_maskComments htext, h]
  cases openAfter none 0 text.sanitize with
  | none => rfl
  | some offset => rfl

end Finding

theorem structureFindings_notice {text other : Text} (htext : '\\' ∉ text)
    (hother : '\\' ∉ other) (h : other.sanitize = text.sanitize) :
    (Document.ofText other).structureFindings.map (Finding.notice 0)
      = (Document.ofText text).structureFindings.map (Finding.notice 0) := by
  have hclean : (Document.ofText other).clean = (Document.ofText text).clean :=
    h
  have htokens : (Document.ofText other).tokens
      = (Document.ofText text).tokens := congrArg tokenize h
  have hown : ∀ t : Text, (Document.ofText t).text = t := fun _ => rfl
  simp only [Document.structureFindings, List.map_append, hclean, htokens, hown,
    Finding.unclosedStrings_notice htext hother h,
    Finding.unbalancedParens_notice text other,
    Finding.unexpectedCommas_notice text other,
    Finding.duplicateCommas_notice text other,
    Finding.emptySelects_notice text other,
    Finding.missingCommas_notice text other,
    Finding.incompleteReferences_notice text other]

/-! ## Checks against a catalog -/

namespace ReferenceCheck

/-- The check of a document without a text, whose subqueries have no wording. -/
def unworded (check : ReferenceCheck) : ReferenceCheck :=
  { check with resolver := check.resolver.unworded }

variable (check : ReferenceCheck)

theorem unknownTables_unworded :
    check.unworded.unknownTables.map (Finding.notice 0)
      = check.unknownTables.map (Finding.notice 0) := by
  have htable : ∀ table,
      (check.unworded.unknownTable? table).map (Finding.notice 0)
        = (check.unknownTable? table).map (Finding.notice 0) := by
    intro table
    have hnames : check.unworded.resolver.subqueries.any (·.name == table.upper)
        = check.resolver.subqueries.any (·.name == table.upper) := List.any_map
    have hcatalog : check.unworded.catalog = check.catalog := rfl
    rw [unknownTable?, unknownTable?, hnames, hcatalog]
    split <;> rfl
  have htables : check.unworded.tables = check.tables := rfl
  rw [unknownTables, unknownTables, htables, List.map_filterMap,
    List.map_filterMap]
  exact congrArg (check.tables.filterMap ·) (funext htable)

theorem unknownColumn?_unworded (column : Token) (lookup : Lookup) :
    (check.unworded.unknownColumn? column lookup.unworded).map
        (Finding.notice 0)
      = (check.unknownColumn? column lookup).map (Finding.notice 0) := by
  cases lookup with
  | found => rfl
  | indeterminate => rfl
  | missing sources available =>
    have hdescribe : (sources.map Source.unworded).map Source.describe
        = sources.map Source.describe := by
      rw [List.map_map]
      exact List.map_congr_left fun source _ => source.describe_unworded
    simp only [Lookup.unworded, unknownColumn?, hdescribe]
    rfl

theorem unknownQualifiedBy_unworded {bindingsFor bindingsFor' : Nat → Bindings}
    (h : ∀ offset, bindingsFor' offset = (bindingsFor offset).unworded)
    (runs : List QualifiedRun) :
    (check.unworded.unknownQualifiedBy bindingsFor' runs).map (Finding.notice 0)
      = (check.unknownQualifiedBy bindingsFor runs).map (Finding.notice 0) := by
  have hcolumn : ∀ run,
      check.unworded.referencedColumn? run = check.referencedColumn? run :=
    fun _ => rfl
  have hresolver : check.unworded.resolver = check.resolver.unworded := rfl
  unfold unknownQualifiedBy
  rw [List.map_flatMap, List.map_flatMap]
  refine congrArg (List.flatMap · runs) (funext fun run => ?_)
  rw [hcolumn]
  cases check.referencedColumn? run with
  | none => rfl
  | some column =>
    simp only [h, hresolver, Resolver.lookupQualified_unworded,
      ← Option.toList_map, unknownColumn?_unworded]

theorem checks_unworded : Respelling.unwording.Checks check check.unworded where
  resolver := check.resolver.links_unworded
  catalog := rfl
  tables := by
    rw [unwording_table, List.map_id]
    rfl
  dataTypes := rfl
  selectAliases :=
    selectAliases_congr check.text check.unworded.text check.tokens

theorem unknownBareBy_unworded (previous : Option Token) (tokens : List Token) :
    (check.unworded.unknownBareBy check.unworded.resolver.bindingsAt
        previous tokens).map (Finding.notice 0)
      = (check.unknownBareBy check.resolver.bindingsAt previous tokens).map
        (Finding.notice 0) := by
  induction tokens generalizing previous with
  | nil => rfl
  | cons t ts ih =>
    have hbare : check.unworded.isBareColumn check.unworded.definedNames
          previous t ts.head?
        = check.isBareColumn check.definedNames previous t ts.head? := by
      rw [check.checks_unworded.definedNames]
      rfl
    have hbindings : check.unworded.resolver.bindingsAt t.start
        = (check.resolver.bindingsAt t.start).unworded :=
      check.resolver.bindingsAt_unworded t.start
    have hlookup : check.unworded.resolver.lookupUnqualified
          (check.resolver.bindingsAt t.start).unworded t.name
        = (check.resolver.lookupUnqualified (check.resolver.bindingsAt t.start)
          t.name).unworded :=
      check.resolver.lookupUnqualified_unworded _ _
    rw [unknownBareBy, unknownBareBy, List.map_append, List.map_append, ih,
      hbare, check.checks_unworded.checksBareColumnsAt, hbindings, hlookup]
    split
    · rw [← Option.toList_map, ← Option.toList_map, unknownColumn?_unworded]
    · rfl

/-- The unknown columns tell nothing of the wording. -/
theorem unknownColumns_notice {text : Text}
    (htext : check.resolver.document = Document.ofText text) :
    check.unknownColumns.map (Finding.notice 0)
      = (check.unworded.unknownQualifiedBy
          (fun offset =>
            check.unworded.resolver.bindingsAt
              (check.unworded.firstAlike check.unworded.qualifiedStarts offset))
          (qualifiedRuns 0 none check.unworded.tokens)
        ++ check.unworded.unknownBareBy check.unworded.resolver.bindingsAt none
          check.unworded.tokens).map (Finding.notice 0) := by
  have hbindings : ∀ offset,
      check.unworded.resolver.bindingsAt
          (check.unworded.firstAlike check.unworded.qualifiedStarts offset)
        = (check.resolver.bindingsAt
          (check.firstAlike check.qualifiedStarts offset)).unworded := by
    intro offset
    rw [check.checks_unworded.firstAlike]
    exact check.resolver.bindingsAt_unworded _
  have htokens : check.unworded.tokens = check.tokens := rfl
  rw [unknownColumns_eq htext, List.map_append, List.map_append, htokens,
    check.unknownQualifiedBy_unworded hbindings, unknownBareBy_unworded]

/-- Two texts with the same masked form are checked alike, but for the wording
of expressions. -/
theorem ofDocument_unworded {text other : Text}
    (h : other.sanitize = text.sanitize) (catalog : Catalog)
    (dialect : Dialect) :
    (ofDocument (Document.ofText other) catalog dialect).unworded
      = (ofDocument (Document.ofText text) catalog dialect).unworded := by
  have hsubqueries := parseSubqueries_unworded h
  simp only [parseSubqueries, Document.ofText, h] at hsubqueries
  simp only [ofDocument, unworded, Resolver.unworded, Document.ofText, h,
    hsubqueries]

end ReferenceCheck

theorem referenceFindings_notice {text other : Text}
    (h : other.sanitize = text.sanitize) (catalog : Catalog)
    (dialect : Dialect) :
    ((Document.ofText other).referenceFindings catalog dialect).map
        (Finding.notice 0)
      = ((Document.ofText text).referenceFindings catalog dialect).map
        (Finding.notice 0) := by
  simp only [Document.referenceFindings, List.map_append]
  rw [← ReferenceCheck.unknownTables_unworded,
    ReferenceCheck.unknownColumns_notice _ rfl,
    ReferenceCheck.ofDocument_unworded h, ReferenceCheck.unknownTables_unworded,
    ← ReferenceCheck.unknownColumns_notice _ rfl]

/-! ## Lines -/

namespace Finding

/-- The span of the finding is found in the text from its offset and
its length. -/
def Located (text : Text) (f : Finding) : Prop :=
  f.span = Span.locate text f.span.offset f.span.length

theorem Located.of_span {text : Text} {f : Finding} {offset length : Nat}
    (h : f.span = Span.locate text offset length) : f.Located text := by
  rw [Located, h]
  rfl

theorem OnTokens.located {text : Text} {tokens : List Token} {f : Finding}
    (h : OnTokens text tokens f) : f.Located text := by
  obtain ⟨_, _, -, hspan⟩ := h
  exact .of_span hspan

theorem structureFindings_located {text : Text} {f : Finding}
    (h : f ∈ (Document.ofText text).structureFindings) : f.Located text := by
  simp only [Document.structureFindings, List.mem_append] at h
  rcases h with (((((h | h) | h) | h) | h) | h) | h
  · unfold unclosedStrings at h
    split at h
    · rw [List.mem_singleton.1 h]
      exact .of_span rfl
    · cases h
  · rcases List.mem_append.1 h with h | h
    · obtain ⟨offset, -, rfl⟩ := List.mem_map.1 h
      exact .of_span rfl
    · obtain ⟨offset, -, rfl⟩ := List.mem_map.1 h
      exact .of_span rfl
  · obtain ⟨t, -, -, hspan⟩ := mem_unexpectedCommas h
    exact .of_span hspan
  · obtain ⟨t, -, -, hspan⟩ := mem_duplicateCommas h
    exact .of_span hspan
  · exact (emptySelects_onTokens h).located
  · exact (missingCommas_onTokens h).located
  · exact (incompleteReferences_onTokens h).located

/-- What a finding tells, the bytes it covers and the line it stands on. Its
kind, severity, message and help follow from the problem and the remedy. -/
def outline (f : Finding) : Problem × Option Remedy × Nat × Nat × Nat :=
  (f.problem, f.remedy, f.span.offset, f.span.length, f.span.line)

end Finding

theorem analyze_located {text : Text} {catalog : Option Catalog}
    {dialect : Dialect} {f : Finding}
    (h : f ∈ analyze text catalog dialect) : f.Located text := by
  rcases List.mem_append.1 h with h | h
  · exact Finding.structureFindings_located h
  · cases catalog with
    | none => cases h
    | some catalog =>
      rcases List.mem_append.1 h with h | h
      · exact (ReferenceCheck.unknownTables_onTokens rfl h).located
      · exact (ReferenceCheck.unknownColumns_onTokens h).located

/-- The line of a finding follows from its offset and the masked text. -/
theorem outlines_eq (text : Text) (catalog : Option Catalog)
    (dialect : Dialect) :
    (analyze text catalog dialect).map Finding.outline
      = ((analyze text catalog dialect).map (Finding.notice 0)).map
        fun (problem, remedy, offset, length) =>
          (problem, remedy, offset, length,
            (text.sanitize.position offset).line) := by
  rw [List.map_map]
  refine List.map_congr_left fun f hf => ?_
  have hline : f.span.line = (text.sanitize.position f.span.offset).line := by
    rw [line_position_sanitize, analyze_located hf]
    rfl
  simp only [Finding.outline, Function.comp_apply, Finding.notice, hline,
    Nat.add_zero]

theorem analyze_notice {text other : Text} (htext : '\\' ∉ text)
    (hother : '\\' ∉ other) (h : other.sanitize = text.sanitize)
    (catalog : Option Catalog) (dialect : Dialect) :
    (analyze other catalog dialect).map (Finding.notice 0)
      = (analyze text catalog dialect).map (Finding.notice 0) := by
  have hstructure := structureFindings_notice htext hother h
  cases catalog with
  | none =>
    simp only [analyze, Option.map_none, Option.getD_none, List.append_nil,
      hstructure]
  | some catalog =>
    simp only [analyze, Option.map_some, Option.getD_some, List.map_append,
      hstructure, referenceFindings_notice h]

/-- Texts without backslashes that have the same masked form, that is differ in
the contents of comments and string literals only, have the same findings, one
by one, on the same bytes and lines. -/
theorem findings_ignore_masked_contents (text other : Text)
    (htext : '\\' ∉ text) (hother : '\\' ∉ other)
    (h : text.sanitize = other.sanitize) (catalog : Option Catalog)
    (dialect : Dialect) :
    (analyze text catalog dialect).map Finding.outline
      = (analyze other catalog dialect).map Finding.outline := by
  rw [outlines_eq, outlines_eq, analyze_notice hother htext h, h]

/-- A query with a comment, a renamed literal and a literal that never ends. -/
def commentedQuery : Text :=
  ("WITH a AS (SELECT 'x' c FROM t) -- one\n"
    ++ "SELECT a.bad, 'ü' d FROM a, gone WHERE d = 'e").toList

/-- The query with other contents, among them two characters where there was
one of two bytes. -/
def recommentedQuery : Text :=
  ("WITH a AS (SELECT 'y' c FROM t) -- (('\n"
    ++ "SELECT a.bad, ');' d FROM a, gone WHERE d = '(").toList

theorem findings_ignore_masked_contents_commentedQuery :
    '\\' ∉ commentedQuery ∧ '\\' ∉ recommentedQuery ∧
      commentedQuery.sanitize = recommentedQuery.sanitize ∧
      commentedQuery ≠ recommentedQuery ∧
      (analyze commentedQuery (some oneTable) .postgresql).map Finding.outline
        = (analyze recommentedQuery (some oneTable) .postgresql).map
          Finding.outline ∧
      (analyze commentedQuery (some oneTable) .postgresql).map Finding.outline
        = [(.unclosedString, none, 83, 1, 2),
          (.unknownTable "gone", none, 68, 4, 2),
          (.unknownColumn "bad" ["subquery A"] ["c"], some (.useName "c"), 48,
            3, 2)] := by
  have htext : '\\' ∉ commentedQuery := by decide +kernel
  have hother : '\\' ∉ recommentedQuery := by decide +kernel
  have hmasked : commentedQuery.sanitize = recommentedQuery.sanitize := by
    decide +kernel
  exact ⟨htext, hother, hmasked, by decide +kernel,
    findings_ignore_masked_contents commentedQuery recommentedQuery htext hother
      hmasked (some oneTable) .postgresql, by decide +kernel⟩

end QueryAssist
