import QueryAssist.Finding.Analysis
import QueryAssist.Proofs.Finding.Respelling
import QueryAssist.Proofs.Query.LetterCase

/-!
# Findings do not depend on the case of letters

A text and the same text in other case have the same findings in the same
places. Both have them with the text whose ASCII letters are all in upper case:
its tokens are the tokens of the text in upper case, its subqueries stand where
those of the text do, and every lookup misses the same columns. Only the wording
of the findings, which quotes the text, is different.
-/

namespace QueryAssist

open Text

/-! ## Checks that need no catalog -/

open Respelling (raising)

namespace Finding

theorem mark_locate_raise (text : Text) (offset length : Nat)
    {problem problem' : Problem} (remedy remedy' : Option Remedy)
    (hcode : problem'.code = problem.code)
    (hseverity : problem'.severity = problem.severity) :
    (locate (raise text) offset length problem' remedy').mark
      = (locate text offset length problem remedy).mark := by
  simp only [mark, code, severity, locate, locate_raise, hcode, hseverity]

variable (text : Text)

theorem unclosedStrings_raise :
    (unclosedStrings (raise text)).map mark
      = (unclosedStrings text).map mark := by
  have hquote := openQuote_raise none none 0 text.maskComments
  rw [Option.map_none] at hquote
  rw [unclosedStrings, maskComments_raise, hquote, unclosedStrings]
  cases openQuote none none 0 text.maskComments with
  | none => rfl
  | some offset =>
    exact congrArg (fun m => [m])
      (mark_locate_raise text offset 1 none none rfl rfl)

theorem unbalancedParens_raise (clean : Text) :
    (unbalancedParens (raise text) (raise clean)).map mark
      = (unbalancedParens text clean).map mark := by
  simp only [unbalancedParens, unopenedParens_raise, unclosedParens_raise,
    List.map_append, List.map_map]
  congr 1
  · exact List.map_congr_left fun offset _ =>
      mark_locate_raise text offset 1 none none rfl rfl
  · exact List.map_congr_left fun offset _ =>
      mark_locate_raise text offset 1 none none rfl rfl

theorem clauseInFront_raise (tokens : List Token) :
    (clauseInFront (tokens.map Token.raise)).isSome
      = (clauseInFront tokens).isSome := by
  cases tokens with
  | nil => rfl
  | cons t rest =>
    have hby : (rest.head?.map Token.raise).any (·.isKeyword "BY")
        = rest.head?.any (·.isKeyword "BY") :=
      raising.any_token (·.isKeyword "BY") (raising.isKeyword_token "BY")
        rest.head?
    simp only [List.map_cons, clauseInFront, Token.raise_kind,
      Token.raise_isOneOf, List.head?_map, hby]
    split
    · rw [Option.isSome_some, Option.isSome_some]
    · split
      · rw [Token.raise_upper]
      · rw [Token.raise_upper]

theorem unexpectedCommas_raise (tokens : List Token) :
    (unexpectedCommas (raise text) (tokens.map Token.raise)).map mark
      = (unexpectedCommas text tokens).map mark := by
  induction tokens with
  | nil => rfl
  | cons t rest ih =>
    have hclause := clauseInFront_raise rest
    rw [List.map_cons, unexpectedCommas, unexpectedCommas, List.map_append,
      List.map_append, ih, Token.raise_kind]
    refine congrArg (· ++ _) ?_
    split
    · cases hraised : clauseInFront (rest.map Token.raise) with
      | none =>
        rw [hraised, Option.isSome_none, eq_comm, Option.isSome_eq_false_iff,
          Option.isNone_iff_eq_none] at hclause
        rw [hclause]
      | some clause' =>
        rw [hraised, Option.isSome_some, eq_comm,
          Option.isSome_iff_exists] at hclause
        obtain ⟨clause, hclause⟩ := hclause
        rw [hclause]
        exact congrArg (fun m => [m])
          (mark_locate_raise text t.start 1 _ _ rfl rfl)
    · rfl

theorem duplicateCommas_raise (tokens : List Token) :
    (duplicateCommas (raise text) (tokens.map Token.raise)).map mark
      = (duplicateCommas text tokens).map mark := by
  have hpairs :=
    raising.filter_neighbours
      (fun pair => pair.1.kind == .comma && pair.2.kind == .comma)
      (fun _ _ => rfl) tokens
  rw [duplicateCommas, duplicateCommas, List.map_map, List.map_map]
  refine (congrArg (List.map _) hpairs).trans ?_
  rw [List.map_map]
  exact List.map_congr_left fun pair _ =>
    mark_locate_raise text pair.2.start 1 none none rfl rfl

theorem emptySelects_raise (tokens : List Token) :
    (emptySelects (raise text) (tokens.map Token.raise)).map mark
      = (emptySelects text tokens).map mark := by
  have hpairs :=
    raising.filter_neighbours
      (fun pair =>
        pair.1.isKeyword "SELECT" && pair.2.isOneOf ["FROM", "WHERE"])
      (fun a b => by simp only [raising.isKeyword_token, raising.isOneOf_token])
      tokens
  rw [emptySelects, emptySelects, List.map_map, List.map_map]
  refine (congrArg (List.map _) hpairs).trans ?_
  rw [List.map_map]
  exact List.map_congr_left fun pair _ =>
    mark_locate_raise text pair.1.start (pair.1.stop - pair.1.start) none
      none rfl rfl

theorem isBarePair_raise (before first second : Token)
    (following : Option Token) :
    isBarePair before.raise first.raise second.raise (following.map Token.raise)
      = isBarePair before first second following := by
  have hdot : ((following.map Token.raise).any fun t => t.kind == .dot)
      = following.any fun t => t.kind == .dot :=
    raising.any_kind (· == .dot) following
  simp only [isBarePair, Token.raise_isIdentifier, Token.raise_kind,
    Token.raise_isKeyword, hdot]

theorem missingCommasIn_raise (before : Token) (depth : Nat)
    (tokens : List Token) :
    (missingCommasIn (raise text) before.raise depth
        (tokens.map Token.raise)).map mark
      = (missingCommasIn text before depth tokens).map mark := by
  induction tokens generalizing before depth with
  | nil => rfl
  | cons t rest ih =>
    unfold missingCommasIn
    simp only [List.map_cons, Token.raise_kind, Token.raise_isOneOf]
    split
    · exact ih t (depth + 1)
    · split
      · rfl
      · exact ih t (depth - 1)
    · rfl
    · split
      · rfl
      · simp only [List.map_append, ih]
        refine congrArg (· ++ _) ?_
        cases rest with
        | nil => rfl
        | cons second more =>
          simp only [List.map_cons, List.head?_map, isBarePair_raise]
          split
          · exact congrArg (fun m => [m])
              (mark_locate_raise text second.start (second.stop - second.start)
                none none rfl rfl)
          · rfl

theorem missingCommas_raise (tokens : List Token) :
    (missingCommas (raise text) (tokens.map Token.raise)).map mark
      = (missingCommas text tokens).map mark := by
  induction tokens with
  | nil => rfl
  | cons t rest ih =>
    rw [List.map_cons, missingCommas, missingCommas, List.map_append,
      List.map_append, ih, Token.raise_isKeyword]
    split
    · rw [missingCommasIn_raise]
    · rfl

theorem isDangling_raise (dot : Token) (tokens : List Token) :
    isDangling dot.raise (tokens.map Token.raise) = isDangling dot tokens := by
  cases tokens with
  | nil => rfl
  | cons next rest =>
    have hclause : Keyword.isClause next.raise.text
        = Keyword.isClause next.text := raising.isClause_text next
    rw [List.map_cons, isDangling, isDangling, hclause]
    rfl

theorem incompleteReferences_raise (tokens : List Token) :
    (incompleteReferences (raise text) (tokens.map Token.raise)).map mark
      = (incompleteReferences text tokens).map mark := by
  induction tokens with
  | nil => rfl
  | cons t rest ih =>
    unfold incompleteReferences
    simp only [List.map_cons, List.map_append, ih]
    refine congrArg (· ++ _) ?_
    cases rest with
    | nil => rfl
    | cons dot more =>
      simp only [List.map_cons, Token.raise_isName, Token.raise_kind,
        Token.raise_start, Token.raise_stop, isDangling_raise]
      split
      · exact congrArg (fun m => [m])
          (mark_locate_raise text t.start (dot.stop - t.start) none
            none rfl rfl)
      · rfl

end Finding

theorem structureFindings_raise (document : Document) :
    document.raise.structureFindings.map Finding.mark
      = document.structureFindings.map Finding.mark := by
  simp only [Document.raise, Document.structureFindings, List.map_append,
    Finding.unclosedStrings_raise, Finding.unbalancedParens_raise,
    Finding.unexpectedCommas_raise, Finding.duplicateCommas_raise,
    Finding.emptySelects_raise, Finding.missingCommas_raise,
    Finding.incompleteReferences_raise]

/-! ## Checks against a catalog -/

open ReferenceCheck

/-- Both documents are checked against the same catalog. -/
theorem checks_raise (document : Document) (catalog : Catalog)
    (dialect : Dialect) :
    raising.Checks (.ofDocument document catalog dialect)
      (.ofDocument document.raise catalog dialect) where
  resolver :=
    { catalog := rfl
      tokens := rfl
      subqueries := rfl
      bounds := statementBounds_raise document.clean }
  catalog := rfl
  tables := raising.tableRefs_map document.tokens
  dataTypes := rfl
  selectAliases := selectAliases_raise document.text document.tokens

theorem referenceFindings_raise (text : Text) (catalog : Catalog)
    (dialect : Dialect) :
    ((Document.ofText (raise text)).referenceFindings catalog dialect).map
        Finding.mark
      = ((Document.ofText text).referenceFindings catalog dialect).map
        Finding.mark := by
  have hchecks := checks_raise (Document.ofText text) catalog dialect
  rw [← Document.ofText_raise] at hchecks
  have hcolumns : ∀ t : Text,
      (ofDocument (Document.ofText t) catalog dialect).unknownColumns.map
          Finding.mark
        = (ofDocument (Document.ofText t) catalog dialect).missedColumns.map
          (Token.missedMark t) :=
    fun _ => unknownColumns_mark rfl
  have hplaces : ∀ tokens : List Token,
      (tokens.map Token.raise).map (Token.missedMark (raise text))
        = tokens.map (Token.missedMark text) := by
    intro tokens
    rw [List.map_map]
    refine List.map_congr_left fun t _ => ?_
    simp only [Function.comp_apply, Token.missedMark, locate_raise,
      Token.raise_start, Token.raise_stop]
  have hmissed : (ofDocument (Document.ofText (raise text))
        catalog dialect).missedColumns
      = (ofDocument (Document.ofText text) catalog dialect).missedColumns.map
        Token.raise := hchecks.missedColumns
  have htables := hchecks.unknownTables (locate_raise text)
  rw [Document.referenceFindings, Document.referenceFindings, List.map_append,
    List.map_append, hcolumns, hcolumns, hmissed, htables, hplaces]

/-- Raising the letters of a text changes nothing about its findings but
their wording. -/
theorem analyze_raise (text : Text) (catalog : Option Catalog)
    (dialect : Dialect) :
    (analyze (raise text) catalog dialect).map Finding.mark
      = (analyze text catalog dialect).map Finding.mark := by
  have hstructure := structureFindings_raise (Document.ofText text)
  rw [← Document.ofText_raise] at hstructure
  cases catalog with
  | none =>
    have hanalyze : ∀ t : Text,
        analyze t none dialect = (Document.ofText t).structureFindings :=
      fun _ => List.append_nil _
    rw [hanalyze, hanalyze, hstructure]
  | some catalog =>
    have hanalyze : ∀ t : Text,
        analyze t (some catalog) dialect
          = (Document.ofText t).structureFindings
            ++ (Document.ofText t).referenceFindings catalog dialect :=
      fun _ => rfl
    rw [hanalyze, hanalyze, List.map_append, List.map_append, hstructure,
      referenceFindings_raise]

/-- Two texts that differ only in the case of ASCII letters have equally many
findings, and those at the same position of the two lists are of one kind and
severity and point at the same lines, columns and bytes. -/
theorem findings_ignore_letter_case (text other : Text)
    (h : text.map Char.toUpper = other.map Char.toUpper)
    (catalog : Option Catalog) (dialect : Dialect) :
    (analyze text catalog dialect).map Finding.mark
      = (analyze other catalog dialect).map Finding.mark := by
  calc (analyze text catalog dialect).map Finding.mark
    _ = (analyze (raise text) catalog dialect).map Finding.mark :=
        (analyze_raise text catalog dialect).symm
    _ = (analyze (raise other) catalog dialect).map Finding.mark := by
        rw [raise, h, raise]
    _ = (analyze other catalog dialect).map Finding.mark :=
        analyze_raise other catalog dialect

/-- A query with findings of four kinds, whose subquery, table and column are
spelled in two ways. -/
def mixedCaseQuery : Text :=
  ("with a as (select id, no \"Top\" from T, gone) "
    ++ "Select A.bad, x y, from a where \"TOP\" = miss").toList

/-- The same query with the case of all letters changed. -/
def swappedCaseQuery : Text :=
  ("WITH A AS (SELECT ID, NO \"tOP\" FROM t, GONE) "
    ++ "sELECT a.BAD, X Y, FROM A WHERE \"top\" = MISS").toList

theorem findings_ignore_letter_case_mixedCaseQuery :
    mixedCaseQuery.map Char.toUpper = swappedCaseQuery.map Char.toUpper ∧
      (analyze mixedCaseQuery (some oneTable) .postgresql).map Finding.mark
        = (analyze swappedCaseQuery (some oneTable) .postgresql).map
          Finding.mark ∧
      (analyze mixedCaseQuery (some oneTable) .postgresql).map
          (fun f => (f.code, f.span.offset))
        = [("E1004", 62), ("E1007", 25), ("E1007", 61), ("E0001", 39),
          ("E0002", 54), ("E0002", 59), ("E0002", 85)] := by
  have hsame : mixedCaseQuery.map Char.toUpper
      = swappedCaseQuery.map Char.toUpper := by decide +kernel
  have hmarks :=
    findings_ignore_letter_case mixedCaseQuery swappedCaseQuery hsame
      (some oneTable) .postgresql
  exact ⟨hsame, hmarks, by decide +kernel⟩

end QueryAssist
