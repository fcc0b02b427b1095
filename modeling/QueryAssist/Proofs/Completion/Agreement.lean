import Mathlib.Data.List.Find
import QueryAssist.Completion.Basic
import QueryAssist.Proofs.Token.Division
import QueryAssist.Proofs.Scope.Span
import QueryAssist.Proofs.Scope.Verdict

/-!
# Completion offers the columns that lookup finds

Behind a qualifier that names a source, completion lists the columns of the
source, and of columns with one name it keeps the first. Lookup finds the first
column of a name in the same list. So the two agree on every name, whether a
column is declared or comes from a wildcard.

A cursor may stand inside a character. What is asked about it is asked about the
boundary before it, except for the bindings, which are those of the offset
itself; behind a qualifier the two have the same bindings.
-/

namespace QueryAssist

open Text

/-! ## Candidates without repetitions -/

namespace Candidate

/-- Whether the candidate is of this kind and, but for the case of ASCII
letters, has this label. -/
def isCalled (kind : CandidateKind) (label : String) (c : Candidate) : Bool :=
  c.kind == kind && sameAscii c.label label

variable {kind : CandidateKind} {label : String} {a b : Candidate}

theorem isCalled_iff :
    a.isCalled kind label = true ↔
      a.kind = kind ∧ foldAscii a.label = foldAscii label := by
  simp [isCalled, sameAscii]

theorem repeats_iff :
    a.repeats b = true ↔
      a.kind = b.kind ∧ foldAscii a.label = foldAscii b.label := by
  simp [repeats, sameAscii]

theorem repeats_of_isCalled (ha : a.isCalled kind label = true)
    (hb : b.isCalled kind label = true) : a.repeats b = true := by
  rw [isCalled_iff] at ha hb
  exact repeats_iff.2 ⟨ha.1.trans hb.1.symm, ha.2.trans hb.2.symm⟩

theorem isCalled_of_repeats (h : a.repeats b = true)
    (hb : b.isCalled kind label = true) : a.isCalled kind label = true := by
  rw [repeats_iff] at h
  rw [isCalled_iff] at hb ⊢
  exact ⟨h.1.trans hb.1, h.2.trans hb.2⟩

end Candidate

/-- Of the candidates of one kind and label the first is kept, unless one was
seen before. -/
theorem filter_distinctCandidates (kind : CandidateKind) (label : String)
    (seen candidates : List Candidate) :
    (distinctCandidates seen candidates).filter (·.isCalled kind label)
      = if seen.any (·.isCalled kind label) then []
        else (candidates.find? (·.isCalled kind label)).toList := by
  induction candidates generalizing seen with
  | nil => simp [distinctCandidates]
  | cons c rest ih =>
    rw [distinctCandidates]
    by_cases hrepeats : seen.any (·.repeats c) = true
    · rw [if_pos hrepeats, ih]
      by_cases hc : c.isCalled kind label = true
      -- What the candidate repeats has the label too, so it was seen.
      · obtain ⟨earlier, hmem, hrepeat⟩ := List.any_eq_true.1 hrepeats
        have hseen : seen.any (·.isCalled kind label) = true :=
          List.any_eq_true.2
            ⟨earlier, hmem, Candidate.isCalled_of_repeats hrepeat hc⟩
        rw [if_pos hseen, if_pos hseen]
      · rw [List.find?_cons_of_neg hc]
    · rw [if_neg hrepeats]
      by_cases hc : c.isCalled kind label = true
      · have hseen : ¬ seen.any (·.isCalled kind label) = true := by
          intro hseen
          obtain ⟨earlier, hmem, hearlier⟩ := List.any_eq_true.1 hseen
          exact hrepeats
            (List.any_eq_true.2
              ⟨earlier, hmem, Candidate.repeats_of_isCalled hearlier hc⟩)
        rw [List.filter_cons_of_pos hc, ih, if_neg hseen,
          List.find?_cons_of_pos hc]
        simp [hc]
      · rw [List.filter_cons_of_neg hc, ih, List.find?_cons_of_neg hc]
        simp [hc]

theorem mem_of_mem_distinctCandidates {seen candidates : List Candidate}
    {c : Candidate}
    (h : c ∈ distinctCandidates seen candidates) : c ∈ candidates := by
  induction candidates generalizing seen with
  | nil => cases h
  | cons first rest ih =>
    rw [distinctCandidates] at h
    split at h
    · exact List.mem_cons_of_mem first (ih h)
    · rcases List.mem_cons.1 h with rfl | h
      · exact List.mem_cons_self
      · exact List.mem_cons_of_mem first (ih h)

theorem rank_candidates (candidates : List Candidate) :
    (rank candidates).map CompletionItem.candidate
      = distinctCandidates [] candidates := by
  apply List.ext_getElem?
  intro i
  simp [rank, Function.comp_def]

/-! ## The columns of a source -/

theorem Candidate.ofColumn_kind (column : ColumnRef) :
    (ofColumn column).kind = .column := by
  cases column <;> rfl

theorem Candidate.ofColumn_label (column : ColumnRef) :
    (ofColumn column).label = column.name := by
  cases column <;> rfl

namespace Resolver

variable (r : Resolver) (source : Source)

theorem kind_of_mem_rank_columns {item : CompletionItem}
    (h : item ∈ rank (r.columnCandidates source)) :
    item.candidate.kind = .column := by
  have hmem : item.candidate
      ∈ distinctCandidates [] (r.columnCandidates source) := by
    rw [← rank_candidates]
    exact List.mem_map_of_mem h
  obtain ⟨column, -, hcolumn⟩ :=
    List.mem_map.1 (mem_of_mem_distinctCandidates hmem)
  rw [← hcolumn, Candidate.ofColumn_kind]

/-- Of the columns that are offered, the one of a name is the first column of
the source with that name. -/
theorem filter_rank_columns (name : String) :
    ((rank (r.columnCandidates source)).map CompletionItem.candidate).filter
        (·.isCalled .column name)
      = ((r.columnIn? source name).map Candidate.ofColumn).toList := by
  have hname : (fun c : Candidate => c.isCalled .column name)
        ∘ Candidate.ofColumn
      = fun c : ColumnRef => sameAscii c.name name := by
    funext c
    simp [Candidate.isCalled, Candidate.ofColumn_kind, Candidate.ofColumn_label]
  rw [rank_candidates, filter_distinctCandidates, columnCandidates,
    List.find?_map, hname]
  rfl

theorem mem_rank_columns_iff (name : String) (candidate : Candidate) :
    (∃ item ∈ rank (r.columnCandidates source),
        item.candidate = candidate ∧ sameAscii candidate.label name = true) ↔
      (r.columnIn? source name).map Candidate.ofColumn = some candidate := by
  have hfilter : candidate ∈ ((rank (r.columnCandidates source)).map
        CompletionItem.candidate).filter (·.isCalled .column name) ↔
      (r.columnIn? source name).map Candidate.ofColumn = some candidate := by
    rw [filter_rank_columns, Option.mem_toList]
  rw [← hfilter, List.mem_filter, List.mem_map]
  constructor
  · rintro ⟨item, hitem, rfl, hsame⟩
    refine ⟨⟨item, hitem, rfl⟩, ?_⟩
    simp [Candidate.isCalled, r.kind_of_mem_rank_columns source hitem, hsame]
  · rintro ⟨⟨item, hitem, rfl⟩, hcalled⟩
    simp only [Candidate.isCalled, Bool.and_eq_true] at hcalled
    exact ⟨item, hitem, rfl, hcalled.2⟩

end Resolver

/-! ## The place of a cursor -/

/-- No word ends where the character before is none of a word. -/
theorem Text.wordStart_of_not_isWordChar {text front : Text} {c : Char}
    {boundary : Nat} (hfront : text.upTo boundary = front ++ [c])
    (hc : isWordChar c = false) : text.wordStart boundary = boundary := by
  simp [wordStart, hfront, hc]

/-- A qualifier ends with a dot right before the word at the cursor. -/
theorem dot_of_expectation {wordStart : Nat} {before : List Token}
    {qualifier : String}
    (h : (expectation wordStart before).2 = some qualifier) :
    ∃ dot ∈ before, dot.kind = .dot ∧ dot.stop = wordStart := by
  unfold expectation at h
  split at h
  · cases h
  · rename_i last earlier
    split at h
    · rename_i hqualifier
      split at hqualifier
      · rename_i hstop
        refine ⟨last, List.mem_cons_self, ?_, hstop⟩
        unfold qualifierBefore at hqualifier
        split at hqualifier
        · rename_i dot name rest heq
          obtain ⟨rfl, -⟩ := List.cons.inj heq
          split at hqualifier
          · rename_i hdot
            simp only [Bool.and_eq_true, beq_iff_eq] at hdot
            exact hdot.1.1
          · cases hqualifier
        · cases hqualifier
      · cases hqualifier
    · split at h
      · cases h
      · split at h <;> cases h

theorem dot_of_qualifier {document : Document} {offset : Nat}
    {qualifier : String}
    (h : (document.contextAt offset).qualifier = some qualifier) :
    ∃ dot ∈ document.tokens, dot.kind = .dot ∧
      dot.stop = document.clean.wordStart (document.clean.floor offset) := by
  obtain ⟨dot, hmem, hkind, hstop⟩ := dot_of_expectation h
  exact ⟨dot, (List.mem_filter.1 (List.mem_reverse.1 hmem)).1, hkind, hstop⟩

/-- Behind a qualifier the cursor is in no masked character. -/
theorem floor_sanitize_of_qualifier {text : Text} {offset : Nat}
    {qualifier : String}
    (h : (classify text offset).qualifier = some qualifier) :
    text.sanitize.floor offset = text.floor offset := by
  obtain ⟨dot, hmem, -, hstop⟩ := dot_of_qualifier h
  rcases floor_maskFrom_cases .commentsAndStrings .code text offset
    with heq | ⟨hinside, front, hfront⟩
  · exact heq
  -- Else a blank stands before it, so the dot would stop inside a character of
  -- the text.
  · have hup : text.sanitize.upTo (text.sanitize.floor offset)
        = front ++ [' '] := by
      rw [(upTo_floor text.sanitize offset).1]
      exact hfront
    have hword := wordStart_of_not_isWordChar hup (by decide +kernel)
    have hboundary := ((aligned_tokenize text).range dot hmem).stop_boundary
    rw [hstop, show (Document.ofText text).clean = text.sanitize from rfl,
      hword] at hboundary
    rw [sanitize, hinside] at hboundary
    cases hboundary

/-- A qualifier does not follow the last definition without a dot between. -/
theorem lastStop_ne_of_qualifier {text : Text} {offset : Nat}
    {qualifier : String} (h : (classify text offset).qualifier = some qualifier)
    (catalog : Option Catalog) :
    Resolver.lastStop { document := Document.ofText text, catalog }
      ≠ some (text.floor offset) := by
  intro hlast
  obtain ⟨dot, hmem, hkind, hstop⟩ := dot_of_qualifier h
  obtain ⟨s, hs, hsstop⟩ := Resolver.exists_lastStop hlast
  have hmember : s ∈ parseSubqueries text := hs
  have hclose := close_hasAt_sanitize hmember
  have hnext := (body_parens hmember).2.2.2.2
  have hfloor : text.sanitize.floor offset = s.bodyStop + 1 := by
    rw [floor_sanitize_of_qualifier h, ← hsstop, hnext]
  -- The closing parenthesis stands right before the cursor, where the
  -- dot should.
  have hword : text.sanitize.wordStart (text.sanitize.floor offset)
      = s.bodyStop + 1 := by
    obtain ⟨front, rest, htext, hwidth⟩ := hclose
    have hup := upTo_append_width (front ++ [')']) rest
    rw [width_append, hwidth, List.append_assoc, List.singleton_append,
      ← htext] at hup
    rw [hfloor]
    exact wordStart_of_not_isWordChar hup (by decide +kernel)
  have hmark : dot.kind.mark? = some '.' := by rw [hkind]; rfl
  have hdot := (hasAt_mark hmem hmark).1
  have hdotStop := stop_of_mark hmem hmark
  rw [show (Document.ofText text).clean = text.sanitize from rfl,
    hword] at hstop
  have hstart : dot.start = s.bodyStop := by
    have hsize : ('.').utf8Size = 1 := rfl
    omega
  rw [hstart] at hdot
  exact absurd (hdot.unique hclose) (by decide)

namespace Resolver

variable {r : Resolver} {text : Text} {offset : Nat}

/-- A body holds an offset iff it holds the boundary before it. -/
theorem containsBody_floor (htext : r.document = Document.ofText text)
    {s : Subquery} (hs : s ∈ r.subqueries) (offset : Nat) :
    s.containsBody (text.floor offset) = s.containsBody offset := by
  rw [subqueries_eq htext] at hs
  obtain ⟨hopen, hclose, hstart, -, -⟩ := body_parens hs
  have hfirst := le_floor_iff hopen.isRange.stop_boundary offset
  have hlast := le_floor_iff hclose.isRange.stop_boundary offset
  have hopenSize : ('(').utf8Size = 1 := rfl
  have hcloseSize : (')').utf8Size = 1 := rfl
  rw [hopenSize, show s.bodyStart - 1 + 1 = s.bodyStart by omega] at hfirst
  rw [hcloseSize] at hlast
  rw [Subquery.containsBody, Subquery.containsBody, Bool.eq_iff_iff]
  simp only [Bool.and_eq_true, decide_eq_true_eq]
  omega

theorem stop_le_floor_iff (htext : r.document = Document.ofText text)
    {s : Subquery} (hs : s ∈ r.subqueries) (offset : Nat) :
    s.stop ≤ text.floor offset ↔ s.stop ≤ offset := by
  rw [subqueries_eq htext] at hs
  obtain ⟨-, hclose, -, -, hstop⟩ := body_parens hs
  rw [hstop]
  exact le_floor_iff hclose.isRange.stop_boundary offset

theorem scopeAt_floor (htext : r.document = Document.ofText text)
    (hlast : r.lastStop ≠ some (text.floor offset)) :
    r.scopeAt (text.floor offset) = r.scopeAt offset := by
  have hbodies : r.subqueries.find? (·.containsBody (text.floor offset))
      = r.subqueries.find? (·.containsBody offset) :=
    List.find?_congr fun s hs => containsBody_floor htext hs offset
  rw [scopeAt, scopeAt, hbodies]
  cases r.subqueries.find? (·.containsBody offset) with
  | some s => rfl
  | none =>
    cases hstop : r.lastStop with
    | none => rfl
    | some stop =>
      obtain ⟨s, hs, rfl⟩ := exists_lastStop hstop
      have hle := stop_le_floor_iff htext hs offset
      have hfloor := floor_le text offset
      have hne : s.stop ≠ text.floor offset :=
        fun heq => hlast (by rw [hstop, heq])
      have hlt : s.stop < text.floor offset ↔ s.stop < offset := by omega
      simp only [hlt]

/-- The names at an offset are those at the boundary before it, unless
the last definition stops at the boundary or the offset lies inside a
masked character. -/
theorem bindingsAt_floor (htext : r.document = Document.ofText text)
    (hlast : r.lastStop ≠ some (text.floor offset))
    (hfloor : text.sanitize.floor offset = text.floor offset) :
    r.bindingsAt (text.floor offset) = r.bindingsAt offset := by
  have hclean : r.document.clean = text.sanitize := by rw [htext]; rfl
  have hbounds : r.document.clean.statementBounds (text.floor offset)
      = r.document.clean.statementBounds offset := by
    obtain ⟨hup, hafter⟩ := upTo_floor text.sanitize offset
    rw [hclean, ← hfloor, statementBounds_eq, statementBounds_eq, hup, hafter]
  have hspan : ∀ scope,
      r.span scope (text.floor offset) = r.span scope offset := by
    intro scope
    cases scope with
    | subquery s => rfl
    | main => rw [span, hbounds, span]
    | unstructured => exact hbounds
  have hvisible : ∀ scope,
      r.visible scope (text.floor offset) = r.visible scope offset := by
    intro scope
    cases scope with
    | subquery s => rfl
    | main => rfl
    | unstructured =>
      refine List.filter_congr ?_
      intro s hs
      simp only [stop_le_floor_iff htext hs offset]
  rw [bindingsAt, bindingsAt, scopeAt_floor htext hlast, hspan, hvisible]

end Resolver

/-! ## Behind a qualifier -/

/-- Behind a qualifier that names a source, the columns of the source
are offered. -/
theorem complete_of_qualifier {text : Text} {offset : Nat}
    {catalog : Option Catalog} {dialect : Dialect} {qualifier : String}
    {source : Source} (hcomment : text.inComment offset = false)
    (hkind : (classify text offset).kind = .column)
    (hqualifier : (classify text offset).qualifier = some qualifier)
    (hsource : let r : Resolver := { document := Document.ofText text, catalog }
      r.source? ((r.bindingsAt offset).target qualifier)
          (r.bindingsAt offset).visible
        = some source) :
    complete text offset catalog dialect
      = rank (Resolver.columnCandidates
        { document := Document.ofText text, catalog } source) := by
  have hfloor := floor_sanitize_of_qualifier hqualifier
  have hcode : text.inComment (text.floor offset) = false := by
    rw [← hcomment, inComment, inComment, (upTo_floor text offset).1]
  have hbindings :=
    Resolver.bindingsAt_floor
      (r := { document := Document.ofText text, catalog }) rfl
      (lastStop_ne_of_qualifier hqualifier catalog) hfloor
  have hcontext : (Document.ofText text).contextAt (text.floor offset)
      = classify text offset := by
    have hclean : (Document.ofText text).clean = text.sanitize := rfl
    have htwice : text.sanitize.floor (text.floor offset)
        = text.sanitize.floor offset := by
      rw [← hfloor, floor, (upTo_floor text.sanitize offset).1]
      rfl
    rw [classify, Document.contextAt, Document.contextAt, hclean, htwice]
  simp only [complete, hcode, Bool.false_eq_true, if_false, hbindings, hcontext,
    candidatesFor, hkind, hqualifier, qualifiedCandidates]
  simp only at hsource
  rw [hsource]

/-- Where a cursor outside comments stands behind a qualifier that names a
source, completion offers columns only, and lookup finds a column of any name
iff one is offered under it, ignoring the case of ASCII letters; the column that
is found then has the label that is offered as its name. -/
theorem completion_agrees_with_lookup (text : Text) (offset : Nat)
    (catalog : Option Catalog) (dialect : Dialect) (qualifier : String)
    (source : Source) (hcomment : text.inComment offset = false)
    (hkind : (classify text offset).kind = .column)
    (hqualifier : (classify text offset).qualifier = some qualifier)
    (hsource : let r : Resolver := { document := Document.ofText text, catalog }
      r.source? ((r.bindingsAt offset).target qualifier)
          (r.bindingsAt offset).visible
        = some source) :
    let r : Resolver := { document := Document.ofText text, catalog }
    let items := complete text offset catalog dialect
    let lookup := r.lookupQualified (r.bindingsAt offset) qualifier
    (∀ item ∈ items, item.candidate.kind = .column) ∧
      ∀ name : String,
        ((∃ found column, lookup name = .found found column) ↔
            ∃ item ∈ items, sameAscii item.candidate.label name = true) ∧
          ∀ found column, lookup name = .found found column →
            ∀ item ∈ items, sameAscii item.candidate.label name = true →
              column.name = item.candidate.label := by
  intro r items lookup
  have hitems : items = rank (r.columnCandidates source) :=
    complete_of_qualifier hcomment hkind hqualifier hsource
  have hlookup : ∀ name found column, lookup name = .found found column ↔
      found = source ∧ r.columnIn? source name = some column := by
    intro name found column
    have hin : lookup name = r.lookupIn source name := by
      simp only [lookup, Resolver.lookupQualified]
      simp only at hsource
      rw [hsource]
    rw [hin, Resolver.lookupIn_eq_found_iff]
  rw [hitems]
  refine ⟨fun item hitem => r.kind_of_mem_rank_columns source hitem, ?_⟩
  intro name
  constructor
  · constructor
    · rintro ⟨found, column, hfound⟩
      obtain ⟨-, hcolumn⟩ := (hlookup name found column).1 hfound
      have hoffered :=
        (r.mem_rank_columns_iff source name (.ofColumn column)).2
          (by rw [hcolumn]; rfl)
      obtain ⟨item, hitem, hcandidate, hsame⟩ := hoffered
      exact ⟨item, hitem, by rwa [hcandidate]⟩
    · rintro ⟨item, hitem, hsame⟩
      have hfirst :=
        (r.mem_rank_columns_iff source name item.candidate).1
          ⟨item, hitem, rfl, hsame⟩
      obtain ⟨column, hcolumn, -⟩ := Option.map_eq_some_iff.1 hfirst
      exact ⟨source, column, (hlookup name source column).2 ⟨rfl, hcolumn⟩⟩
  · intro found column hfound item hitem hsame
    obtain ⟨-, hcolumn⟩ := (hlookup name found column).1 hfound
    have hfirst :=
      (r.mem_rank_columns_iff source name item.candidate).1
        ⟨item, hitem, rfl, hsame⟩
    rw [hcolumn, Option.map_some, Option.some.injEq] at hfirst
    rw [← hfirst, Candidate.ofColumn_label]

/-- A subquery with a column and the columns of a table, one of them of the same
name, and a cursor behind its alias. -/
def wildcardQuery : Text :=
  "WITH a AS (SELECT t.*, 1 ID FROM t) SELECT b. FROM a b".toList

theorem completion_agrees_with_lookup_wildcardQuery :
    let catalog :=
      Catalog.ofTables
        [{ name := "T", columns := [{ name := "id" }, { name := "no" }] }]
    let r : Resolver :=
      { document := Document.ofText wildcardQuery, catalog := some catalog }
    let items := complete wildcardQuery 45 (some catalog) .postgresql
    let lookup := r.lookupQualified (r.bindingsAt 45) "b"
    wildcardQuery.inComment 45 = false ∧
      (classify wildcardQuery 45).kind = .column ∧
      (classify wildcardQuery 45).qualifier = some "b" ∧
      (r.source? ((r.bindingsAt 45).target "b")
          (r.bindingsAt 45).visible).isSome = true ∧
      items.map (·.candidate.label) = ["ID", "no"] ∧
      (∃ found column, lookup "iD" = .found found column) ∧
      ¬ ∃ found column, lookup "other" = .found found column := by
  intro catalog r items lookup
  have hcomment : wildcardQuery.inComment 45 = false := by decide +kernel
  have hkind : (classify wildcardQuery 45).kind = .column := by decide +kernel
  have hqualifier : (classify wildcardQuery 45).qualifier = some "b" := by
    decide +kernel
  have hsome : (r.source? ((r.bindingsAt 45).target "b")
        (r.bindingsAt 45).visible).isSome = true := by decide +kernel
  have hlabels : items.map (·.candidate.label) = ["ID", "no"] := by
    decide +kernel
  obtain ⟨source, hsource⟩ := Option.isSome_iff_exists.1 hsome
  obtain ⟨-, hnames⟩ :=
    completion_agrees_with_lookup wildcardQuery 45 (some catalog) .postgresql
      "b" source hcomment hkind hqualifier hsource
  have hoffered : ∀ name,
      (∃ item ∈ items, sameAscii item.candidate.label name = true) ↔
        ∃ label ∈ ["ID", "no"], sameAscii label name = true := by
    intro name
    rw [← hlabels]
    simp only [List.mem_map, exists_exists_and_eq_and]
  refine ⟨hcomment, hkind, hqualifier, hsome, hlabels, ?_, ?_⟩
  · exact (hnames "iD").1.2 ((hoffered "iD").2 (by decide +kernel))
  · intro hfound
    exact absurd ((hoffered "other").1 ((hnames "other").1.1 hfound))
      (by decide +kernel)

end QueryAssist
