import QueryAssist.Proofs.Finding.BindingsCache
import QueryAssist.Proofs.Finding.Placement
import QueryAssist.Proofs.Query.Division

/-!
# Statements without named subqueries do not see each other

The names that a column may use are bound in its own statement. So where no
subquery is named, the findings against a catalog of two texts divided by a
semicolon are the findings of the first and then, moved behind the semicolon,
those of the second.
-/

namespace QueryAssist

open Text

/-! ## Texts without named subqueries -/

/-- No token of the text is the keyword `WITH`. -/
def Text.NamesNoSubquery (text : Text) : Prop :=
  ∀ t ∈ tokenize text.sanitize, t.isKeyword "WITH" = false

instance Text.NamesNoSubquery.decidable (text : Text) :
    Decidable text.NamesNoSubquery :=
  inferInstanceAs
    (Decidable (∀ t ∈ tokenize text.sanitize, t.isKeyword "WITH" = false))

theorem parseSubqueries_eq_nil {text : Text}
    (h : text.NamesNoSubquery) : parseSubqueries text = [] := by
  have hnone : (tokenize text.sanitize).any (·.isKeyword "WITH") = false := by
    rw [List.any_eq_false]
    intro t ht
    simp [h t ht]
  simp [parseSubqueries, Document.ofText, subqueriesOf, hnone]

theorem namesNoSubquery_append {a b : Text} (hcode : Mode.code.run a = .code)
    (ha : a.NamesNoSubquery) (hb : b.NamesNoSubquery) :
    (a ++ ';' :: b).NamesNoSubquery := by
  intro t ht
  rw [tokenize_append_semicolon hcode] at ht
  rcases List.mem_append.1 ht with ht | ht
  · exact ha t ht
  · rcases List.mem_cons.1 ht with rfl | ht
    · rfl
    · obtain ⟨u, hu, rfl⟩ := List.mem_map.1 ht
      exact hb u hu

namespace Resolver

variable {r r' : Resolver}

theorem scopeAt_of_no_subqueries (h : r.subqueries = []) (offset : Nat) :
    r.scopeAt offset = .unstructured := by
  simp [scopeAt, lastStop, h]

/-- Without subqueries the names of an offset are those of its statement. -/
theorem bindingsAt_of_no_subqueries (h : r.subqueries = []) (offset : Nat) :
    r.bindingsAt offset
      = r.bind .unstructured (r.document.clean.statementBounds offset) [] := by
  simp [bindingsAt, scopeAt_of_no_subqueries h, span, visible, h]

theorem visible_of_no_subqueries (h : r.subqueries = []) (offset : Nat) :
    (r.bindingsAt offset).visible = [] := by
  rw [bindingsAt_of_no_subqueries h, bind]

/-- Without subqueries a qualified column is looked up in the catalog, by way of
the aliases alone. -/
theorem lookupQualified_congr {bindings bindings' : Bindings}
    (hcatalog : r'.catalog = r.catalog) (hvisible : bindings.visible = [])
    (hvisible' : bindings'.visible = [])
    (haliases : bindings'.aliases = bindings.aliases)
    (qualifier column : String) :
    r'.lookupQualified bindings' qualifier column
      = r.lookupQualified bindings qualifier column := by
  have htarget : bindings'.target qualifier = bindings.target qualifier := by
    simp [Bindings.target, Bindings.resolve, haliases]
  simp only [lookupQualified, source?, findSubquery, hvisible, hvisible',
    htarget, hcatalog, List.find?_nil]
  rcases r.catalog.bind (·.table? (bindings.target qualifier)) with _ | table
  · rfl
  · rfl

end Resolver

namespace ReferenceCheck

variable {check : ReferenceCheck} {text : Text}

/-- Without subqueries only qualified columns are checked, each with the names
of its statement. -/
theorem unknownColumns_of_no_subqueries
    (htext : check.resolver.document = Document.ofText text)
    (h : check.resolver.subqueries = []) :
    check.unknownColumns
      = check.unknownQualifiedBy check.resolver.bindingsAt
        (qualifiedRuns 0 none check.tokens) := by
  have hbare : ∀ (previous : Option Token) (ts : List Token),
      check.unknownBareBy check.resolver.bindingsAt previous ts = [] := by
    intro previous ts
    induction ts generalizing previous with
    | nil => rfl
    | cons t ts ih =>
      simp [unknownBareBy, checksBareColumnsAt,
        Resolver.scopeAt_of_no_subqueries h, ih]
  have halike : ∀ offset ∈ check.qualifiedStarts,
      check.resolver.SeesAlike (check.firstAlike check.qualifiedStarts offset)
        offset := by
    intro offset _ _ s hs
    rw [h] at hs
    cases hs
  rw [unknownColumns_eq_fresh htext halike, unknownColumnsBy, hbare,
    List.append_nil]

/-! ## Runs of names on both sides of a semicolon -/

namespace QualifiedRun

/-- The run moved on by `n` bytes. -/
def shift (n : Nat) (run : QualifiedRun) : QualifiedRun :=
  { segments := run.segments.map (Token.shift n),
    following := run.following.map (Token.shift n) }

/-- The run with a token behind it, if nothing follows it yet. -/
def endedBy (stop : Token) (run : QualifiedRun) : QualifiedRun :=
  { run with following := run.following.or (some stop) }

/-- The names of the run moved on by `n` bytes, with a parenthesis behind them
if one follows the run. -/
structure Moved (n : Nat) (run moved : QualifiedRun) : Prop where
  segments : moved.segments = run.segments.map (Token.shift n)
  call : moved.following.any (·.kind == .leftParen)
    = run.following.any (·.kind == .leftParen)

theorem moved_shift (n : Nat)
    (run : QualifiedRun) : run.Moved n (run.shift n) where
  segments := rfl
  call := (Recasting.shifting n).any_kind (· == .leftParen) run.following

theorem moved_endedBy {stop : Token} (hstop : stop.kind = .semicolon)
    (run : QualifiedRun) : run.Moved 0 (run.endedBy stop) where
  segments := (List.map_id _).symm
  call := by
    rcases hfollowing : run.following with _ | t
    · simp [endedBy, hfollowing, hstop]
    · simp [endedBy, hfollowing]

theorem Moved.qualifier {n : Nat} {run moved : QualifiedRun}
    (h : run.Moved n moved) : moved.qualifier = run.qualifier := by
  rw [QualifiedRun.qualifier, h.segments]
  exact (Recasting.shifting n).qualifier_run run

end QualifiedRun

theorem qualifiedRuns_shift (n skip : Nat) (previous : Option Token)
    (ts : List Token) :
    qualifiedRuns skip (previous.map (Token.shift n)) (ts.map (Token.shift n))
      = (qualifiedRuns skip previous ts).map (QualifiedRun.shift n) :=
  (Recasting.shifting n).qualifiedRuns_map skip previous ts

theorem qualifiedRuns_append_stop {stop : Token}
    (hstop : stop.kind = .semicolon) (later : List Token) {skip : Nat}
    (previous : Option Token) {ts : List Token} (hskip : skip ≤ ts.length) :
    qualifiedRuns skip previous (ts ++ stop :: later)
      = (qualifiedRuns skip previous ts).map (QualifiedRun.endedBy stop)
        ++ qualifiedRuns 0 (some stop) later := by
  induction ts generalizing skip previous with
  | nil =>
    have hzero : skip = 0 := by simpa using hskip
    subst hzero
    simp [qualifiedRuns, isName_of_semicolon hstop]
  | cons t ts ih =>
    cases skip with
    | succ k => exact ih (some t) (by simpa using hskip)
    | zero =>
      have hle := pathTail_le ts
      rw [List.cons_append, qualifiedRuns, qualifiedRuns]
      simp only [pathTail_append_stop hstop, List.drop_append_of_le_length hle,
        List.take_append_of_le_length hle, ih (some t) hle,
        ih (some t) (Nat.zero_le _), List.head?_append]
      split
      · rfl
      · rfl

theorem qualifiedRuns_behind {stop : Token} (hstop : stop.kind = .semicolon)
    (ts : List Token) :
    qualifiedRuns 0 (some stop) ts = qualifiedRuns 0 none ts := by
  cases ts with
  | nil => rfl
  | cons t ts => simp [qualifiedRuns, hstop]

theorem qualifiedRuns_append_semicolon (ts : List Token) (offset n : Nat)
    (later : List Token) :
    qualifiedRuns 0 none
        (ts ++ Token.semicolonAt offset :: later.map (Token.shift n))
      = (qualifiedRuns 0 none ts).map
          (QualifiedRun.endedBy (Token.semicolonAt offset))
        ++ (qualifiedRuns 0 none later).map (QualifiedRun.shift n) := by
  rw [qualifiedRuns_append_stop rfl _ none (Nat.zero_le _),
    qualifiedRuns_behind rfl, ← qualifiedRuns_shift]
  rfl

/-! ## A part and the whole -/

theorem unknownQualifiedBy_append (check : ReferenceCheck)
    (bindingsFor : Nat → Bindings) (runs later : List QualifiedRun) :
    check.unknownQualifiedBy bindingsFor (runs ++ later)
      = check.unknownQualifiedBy bindingsFor runs
        ++ check.unknownQualifiedBy bindingsFor later :=
  List.flatMap_append

/-- The part stands in the whole, moved on by `n` bytes, and each of its
tokens has the same names there and stands in the path of a table there if it
does in the part. -/
structure IsPart (n : Nat) (part whole : ReferenceCheck) : Prop where
  catalog : whole.catalog = part.catalog
  resolver_catalog : whole.resolver.catalog = part.resolver.catalog
  part_subqueries : part.resolver.subqueries = []
  whole_subqueries : whole.resolver.subqueries = []
  aliases : ∀ t ∈ part.tokens,
    (whole.resolver.bindingsAt (t.start + n)).aliases
      = (part.resolver.bindingsAt t.start).aliases
  inTablePath : ∀ t ∈ part.tokens,
    whole.inTablePath (t.start + n) = part.inTablePath t.start

namespace IsPart

variable {n : Nat} {part whole : ReferenceCheck}

theorem unknownTables (h : IsPart n part whole) (tables : List TableRef) :
    ((tables.map (TableRef.shift n)).filterMap whole.unknownTable?).map
        (Finding.notice 0)
      = (tables.filterMap part.unknownTable?).map (Finding.notice n) := by
  have htable : ∀ table : TableRef,
      (whole.unknownTable? (table.shift n)).map (Finding.notice 0)
        = (part.unknownTable? table).map (Finding.notice n) := by
    intro table
    have hlength : table.stop + n - (table.start + n)
        = table.stop - table.start := by omega
    simp only [unknownTable?, h.catalog, h.whole_subqueries, h.part_subqueries,
      TableRef.shift, TableRef.shortName, List.any_nil, Bool.false_or, hlength]
    split
    · rfl
    · rfl
  rw [List.filterMap_map, List.map_filterMap, List.map_filterMap]
  exact congrArg (tables.filterMap ·) (funext htable)

theorem referencedColumn? (h : IsPart n part whole) {run moved : QualifiedRun}
    (hrun : run.Moved n moved) (hmem : ∀ t ∈ run.segments, t ∈ part.tokens) :
    whole.referencedColumn? moved
      = (part.referencedColumn? run).map (Token.shift n) := by
  have hpath : (moved.segments.head?.map Token.start).any whole.inTablePath
      = (run.segments.head?.map Token.start).any part.inTablePath := by
    rw [hrun.segments, List.head?_map]
    rcases hhead : run.segments.head? with _ | t
    · rfl
    · exact h.inTablePath t (hmem t (List.mem_of_head? hhead))
  rw [ReferenceCheck.referencedColumn?, ReferenceCheck.referencedColumn?,
    hrun.call, hpath]
  split
  · rfl
  · rw [QualifiedRun.column?, hrun.segments, List.getLast?_map,
      QualifiedRun.column?]

theorem unknownColumn?_shift (n : Nat) (part whole : ReferenceCheck)
    (column : Token) (lookup : Lookup) :
    (whole.unknownColumn? (column.shift n) lookup).map (Finding.notice 0)
      = (part.unknownColumn? column lookup).map (Finding.notice n) := by
  have hlength : column.stop + n - (column.start + n)
      = column.stop - column.start := by omega
  cases lookup with
  | found => rfl
  | indeterminate => rfl
  | missing sources available =>
    simp only [unknownColumn?, Token.shift, hlength]
    rfl

/-- The findings for runs of names of the part are those for the runs
in the whole. -/
theorem unknownQualifiedBy (h : IsPart n part whole) {runs : List QualifiedRun}
    {move : QualifiedRun → QualifiedRun}
    (hmove : ∀ run : QualifiedRun, run.Moved n (move run))
    (hmem : ∀ run ∈ runs, ∀ t ∈ run.segments, t ∈ part.tokens) :
    (whole.unknownQualifiedBy whole.resolver.bindingsAt (runs.map move)).map
        (Finding.notice 0)
      = (part.unknownQualifiedBy part.resolver.bindingsAt runs).map
        (Finding.notice n) := by
  induction runs with
  | nil => simp [ReferenceCheck.unknownQualifiedBy]
  | cons run runs ih =>
    have hrest := ih fun run hrun => hmem run (by simp [hrun])
    have hsegments := hmem run (by simp)
    unfold ReferenceCheck.unknownQualifiedBy at hrest ⊢
    rw [List.map_cons, List.flatMap_cons, List.flatMap_cons, List.map_append,
      List.map_append, hrest, h.referencedColumn? (hmove run) hsegments]
    rcases hcolumn : part.referencedColumn? run with _ | column
    · rfl
    · have haliases :=
        h.aliases column (hsegments column (referencedColumn?_mem hcolumn))
      have hvisible :=
        Resolver.visible_of_no_subqueries h.part_subqueries column.start
      have hvisible' :=
        Resolver.visible_of_no_subqueries h.whole_subqueries (column.start + n)
      have hlookup :=
        Resolver.lookupQualified_congr h.resolver_catalog hvisible hvisible'
          haliases run.qualifier column.name
      have hfound :=
        unknownColumn?_shift n part whole column
          (part.resolver.lookupQualified (part.resolver.bindingsAt column.start)
            run.qualifier column.name)
      have hstart : (column.shift n).start = column.start + n := rfl
      have hname : (column.shift n).name = column.name := rfl
      simp only [Option.map_some, (hmove run).qualifier, hstart, hname, hlookup,
        ← Option.toList_map, hfound]

end IsPart

end ReferenceCheck

/-! ## Both sides of a semicolon -/

/-- The tokens of the statement at an offset, whose tables bind the
names there. -/
def Text.statementTokens (text : Text) (offset : Nat) : List Token :=
  let (start, stop) := text.sanitize.statementBounds offset
  ((tokenize text.sanitize).dropWhile (·.start < start)).takeWhile
    (·.start < stop)

theorem aliases_of_no_subqueries {text : Text} (h : text.NamesNoSubquery)
    (catalog : Catalog) (dialect : Dialect) (offset : Nat) :
    ((ReferenceCheck.ofDocument (Document.ofText text)
        catalog dialect).resolver.bindingsAt offset).aliases
      = aliasesOf (tableRefs (text.statementTokens offset)) := by
  rw [Resolver.bindingsAt_of_no_subqueries (by exact parseSubqueries_eq_nil h),
    Resolver.bind, Resolver.tokensIn_eq]
  rfl

theorem aliasesOf_shift (n : Nat) (tables : List TableRef) :
    aliasesOf (tables.map (TableRef.shift n)) = aliasesOf tables := by
  rw [aliasesOf, List.foldl_map]
  rfl

section Sides

variable {a b : Text} (hcode : Mode.code.run a = .code)
include hcode

theorem statementTokens_first {offset : Nat} (hoffset : offset ≤ width a) :
    (a ++ ';' :: b).statementTokens offset = a.statementTokens offset := by
  have hwidth : width a.sanitize = width a := width_maskFrom _ _ a
  obtain ⟨hstart, hstop⟩ := statementBounds_le a.sanitize offset
  rw [hwidth] at hstart hstop
  rw [statementTokens, tokenize_append_semicolon hcode,
    sanitize_append_semicolon hcode, statementBounds_append_left (by omega),
    statementTokens]
  simp only
  rw [dropWhile_append_stop, takeWhile_append_stop]
  · exact decide_eq_false (Nat.not_lt.2 hstop)
  · exact decide_eq_false (Nat.not_lt.2 hstart)

theorem statementTokens_second (offset : Nat) :
    (a ++ ';' :: b).statementTokens (offset + (width a + 1))
      = (b.statementTokens offset).map (Token.shift (width a + 1)) := by
  have hwidth : width a.sanitize = width a := width_maskFrom _ _ a
  have hbounds := statementBounds_append_right a.sanitize b.sanitize offset
  rw [hwidth] at hbounds
  have hfront : ∀ t ∈ tokenize a.sanitize ++ [Token.semicolonAt (width a)],
      t.start < width a + 1 := by
    intro t ht
    rcases List.mem_append.1 ht with ht | ht
    · have hrange := (aligned_tokenize a).range t ht
      have := hrange.lt
      have := hrange.stop_le
      omega
    · rw [List.mem_singleton.1 ht]
      exact Nat.lt_succ_self _
  rw [statementTokens, tokenize_append_semicolon hcode,
    sanitize_append_semicolon hcode, hbounds, statementTokens]
  simp only
  rw [← List.singleton_append, ← List.append_assoc,
    List.dropWhile_append_of_pos, List.dropWhile_map, List.takeWhile_map]
  · refine congrArg _ ?_
    simp only [Function.comp_def, Token.shift, Nat.add_lt_add_iff_right]
  · intro t ht
    have := hfront t ht
    simp only [decide_eq_true_eq]
    omega

theorem tableRefs_sides (hparens : ParensClose (tokenize a.sanitize)) :
    tableRefs (tokenize (a ++ ';' :: b).sanitize)
      = tableRefs (tokenize a.sanitize)
        ++ (tableRefs (tokenize b.sanitize)).map
          (TableRef.shift (width a + 1)) := by
  rw [tokenize_append_semicolon hcode, tableRefs_append_semicolon hparens]

variable {catalog : Catalog} {dialect : Dialect}

/-- The first text is a part of the whole. -/
theorem isPart_first (ha : a.NamesNoSubquery) (hb : b.NamesNoSubquery)
    (hparens : ParensClose (tokenize a.sanitize)) :
    ReferenceCheck.IsPart 0 (.ofDocument (Document.ofText a) catalog dialect)
      (.ofDocument (Document.ofText (a ++ ';' :: b)) catalog dialect) := by
  have hstart : ∀ t ∈ tokenize a.sanitize, t.start ≤ width a := by
    intro t ht
    have hrange := (aligned_tokenize a).range t ht
    have := hrange.lt
    have := hrange.stop_le
    omega
  refine ⟨rfl, rfl, parseSubqueries_eq_nil ha,
    parseSubqueries_eq_nil (namesNoSubquery_append hcode ha hb), ?_, ?_⟩
  · intro t ht
    rw [aliases_of_no_subqueries (namesNoSubquery_append hcode ha hb),
      aliases_of_no_subqueries ha, Nat.add_zero,
      statementTokens_first hcode (hstart t ht)]
  -- the paths of the second text's tables lie behind the token
  · intro t ht
    have hbehind : ((tableRefs (tokenize b.sanitize)).map
          (TableRef.shift (width a + 1))).any
          (fun table =>
            decide (table.start ≤ t.start) && decide (t.start < table.stop))
        = false := by
      rw [List.any_eq_false]
      intro table htable
      obtain ⟨table, -, rfl⟩ := List.mem_map.1 htable
      have hmoved : (table.shift (width a + 1)).start
          = table.start + (width a + 1) := rfl
      have := hstart t ht
      simp only [Bool.and_eq_true, decide_eq_true_eq]
      omega
    show (tableRefs (tokenize (a ++ ';' :: b).sanitize)).any _ = _
    rw [tableRefs_sides hcode hparens, List.any_append, Nat.add_zero, hbehind,
      Bool.or_false]
    rfl

/-- The second text is a part of the whole. -/
theorem isPart_second (ha : a.NamesNoSubquery) (hb : b.NamesNoSubquery)
    (hparens : ParensClose (tokenize a.sanitize)) :
    ReferenceCheck.IsPart (width a + 1)
      (.ofDocument (Document.ofText b) catalog dialect)
      (.ofDocument (Document.ofText (a ++ ';' :: b)) catalog dialect) := by
  refine ⟨rfl, rfl, parseSubqueries_eq_nil hb,
    parseSubqueries_eq_nil (namesNoSubquery_append hcode ha hb), ?_, ?_⟩
  · intro t _
    rw [aliases_of_no_subqueries (namesNoSubquery_append hcode ha hb),
      aliases_of_no_subqueries hb, statementTokens_second hcode,
      tableRefs_shift, aliasesOf_shift]
  -- the paths of the first text's tables lie before the token
  · intro t _
    have hbefore : (tableRefs (tokenize a.sanitize)).any
          (fun table =>
            decide (table.start ≤ t.start + (width a + 1))
              && decide (t.start + (width a + 1) < table.stop)) = false := by
      rw [List.any_eq_false]
      intro table htable
      have :=
        ((aligned_tokenize a).isRange_of_covers
          (tableRefsFrom_covers htable)).stop_le
      simp only [Bool.and_eq_true, decide_eq_true_eq]
      omega
    show (tableRefs (tokenize (a ++ ';' :: b).sanitize)).any _ = _
    rw [tableRefs_sides hcode hparens, List.any_append, hbefore, Bool.false_or,
      List.any_map]
    simp only [Function.comp_def, TableRef.shift, Nat.add_le_add_iff_right,
      Nat.add_lt_add_iff_right]
    rfl

end Sides

open ReferenceCheck in
/-- For texts `a` and `b` that name no subquery, where the scanner ends `a` in
code and the parentheses of `a` are closed: the unknown tables of `a; b` are
those of `a` and then those of `b`, moved on by the bytes of `a` and the
semicolon, and so are the unknown columns. No statement sees the tables, aliases
or columns of the other. -/
theorem statements_are_isolated (a b : Text) (catalog : Catalog)
    (dialect : Dialect) (ha : a.NamesNoSubquery) (hb : b.NamesNoSubquery)
    (hcode : Mode.code.run a = .code)
    (hparens : ParensClose (tokenize a.sanitize)) :
    let check := fun text =>
      ReferenceCheck.ofDocument (Document.ofText text) catalog dialect
    (check (a ++ ';' :: b)).unknownTables.map (Finding.notice 0)
        = (check a).unknownTables.map (Finding.notice 0)
          ++ (check b).unknownTables.map (Finding.notice (width a + 1)) ∧
      (check (a ++ ';' :: b)).unknownColumns.map (Finding.notice 0)
        = (check a).unknownColumns.map (Finding.notice 0)
          ++ (check b).unknownColumns.map (Finding.notice (width a + 1)) := by
  intro check
  have hfirst : IsPart 0 (check a) (check (a ++ ';' :: b)) :=
    isPart_first hcode ha hb hparens
  have hsecond : IsPart (width a + 1) (check b) (check (a ++ ';' :: b)) :=
    isPart_second hcode ha hb hparens
  constructor
  · have htables : (check (a ++ ';' :: b)).tables
        = (check a).tables.map (TableRef.shift 0)
          ++ (check b).tables.map (TableRef.shift (width a + 1)) := by
      rw [show (check a).tables.map (TableRef.shift 0)
        = (check a).tables from List.map_id _]
      exact tableRefs_sides hcode hparens
    rw [unknownTables, htables, List.filterMap_append, List.map_append,
      hfirst.unknownTables, hsecond.unknownTables]
    rfl
  · have hruns : qualifiedRuns 0 none (check (a ++ ';' :: b)).tokens
        = (qualifiedRuns 0 none (check a).tokens).map
            (QualifiedRun.endedBy (Token.semicolonAt (width a)))
          ++ (qualifiedRuns 0 none (check b).tokens).map
            (QualifiedRun.shift (width a + 1)) := by
      rw [← qualifiedRuns_append_semicolon]
      exact congrArg _ (tokenize_append_semicolon hcode b)
    rw [unknownColumns_of_no_subqueries rfl hfirst.whole_subqueries,
      unknownColumns_of_no_subqueries rfl hfirst.part_subqueries,
      unknownColumns_of_no_subqueries rfl hsecond.part_subqueries, hruns,
      unknownQualifiedBy_append, List.map_append,
      hfirst.unknownQualifiedBy (QualifiedRun.moved_endedBy rfl)
        fun _ hrun _ ht => (qualifiedRuns_sublist hrun).subset ht,
      hsecond.unknownQualifiedBy (QualifiedRun.moved_shift _) fun _ hrun _ ht =>
        (qualifiedRuns_sublist hrun).subset ht]

/-- A statement with a semicolon in a literal and one in a quoted name; it binds
`x` to a table of the catalog. -/
def firstStatement : Text :=
  "SELECT x.bad FROM t x, gone WHERE (x.id = ';') ORDER BY \"a;b\"".toList

/-- A statement that binds `x` to a table that the catalog lacks. -/
def secondStatement : Text := " SELECT x.bad, t.no FROM lost x, t".toList

theorem statements_are_isolated_sharedAlias :
    firstStatement.NamesNoSubquery ∧ secondStatement.NamesNoSubquery ∧
      Mode.code.run firstStatement = .code ∧
      ParensClose (tokenize firstStatement.sanitize) ∧
      let check :=
        ReferenceCheck.ofDocument
          (Document.ofText (firstStatement ++ ';' :: secondStatement)) oneTable
          .postgresql
      check.unknownTables.map (Finding.notice 0)
          = [(.unknownTable "gone", none, 23, 4),
            (.unknownTable "lost", some (.useName "T"), 87, 4)] ∧
        check.unknownColumns.map (Finding.notice 0)
          = [(.unknownColumn "bad" ["table T"] ["id"],
                some (.useName "id"), 9, 3),
              (.unknownColumn "no" ["table T"] ["id"],
                some (.useName "id"), 79, 2)] := by
  have ha : firstStatement.NamesNoSubquery := by decide +kernel
  have hb : secondStatement.NamesNoSubquery := by decide +kernel
  have hcode : Mode.code.run firstStatement = .code := by decide +kernel
  have hparens : ParensClose (tokenize firstStatement.sanitize) := by
    decide +kernel
  obtain ⟨htables, hcolumns⟩ :=
    statements_are_isolated firstStatement secondStatement oneTable .postgresql
      ha hb hcode hparens
  refine ⟨ha, hb, hcode, hparens, ?_⟩
  intro check
  rw [htables, hcolumns]
  decide +kernel

end QueryAssist
