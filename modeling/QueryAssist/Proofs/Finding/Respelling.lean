import QueryAssist.Proofs.Finding.Missed
import QueryAssist.Proofs.Query.Recasting

/-!
# Checks in another spelling

Two documents that differ only in how names are spelled are checked alike:
they name the same things, the same tokens of both are columns, and the same
columns and tables are missed. So their findings against a catalog agree in
all but the wording.
-/

namespace QueryAssist

open Text ReferenceCheck

/-- The second check is the first one in the other spelling: it asks the same
catalog about the same places. -/
structure Respelling.Checks (f : Respelling)
    (check check' : ReferenceCheck) : Prop where
  resolver : f.Links check.resolver check'.resolver
  catalog : check'.catalog = check.catalog
  tables : check'.tables = check.tables.map f.table
  dataTypes : check'.dataTypes = check.dataTypes
  selectAliases : selectAliases check'.text check'.tokens
    = selectAliases check.text check.tokens

namespace Respelling.Checks

variable {f : Respelling} {check check' : ReferenceCheck}
  (h : f.Checks check check')
include h

theorem tokens : check'.tokens = check.tokens.map f.token := h.resolver.tokens

theorem inTablePath (offset : Nat) :
    check'.inTablePath offset = check.inTablePath offset := by
  rw [ReferenceCheck.inTablePath, h.tables, List.any_map,
    ReferenceCheck.inTablePath]
  refine congrArg _ (funext fun table => ?_)
  rw [Function.comp_apply, f.start_table, f.stop_table]

theorem referencedColumn? (run : QualifiedRun) :
    check'.referencedColumn? (f.run run)
      = (check.referencedColumn? run).map f.token := by
  have hcall : ((f.run run).following.any fun t => t.kind == .leftParen)
      = run.following.any fun t => t.kind == .leftParen :=
    f.any_kind (· == .leftParen) run.following
  have hhead : ((f.run run).segments.head?.map Token.start).any
        check'.inTablePath
      = (run.segments.head?.map Token.start).any check.inTablePath := by
    have hstart : Token.start ∘ f.token = Token.start := funext f.start_token_eq
    rw [Recasting.run, List.head?_map, Option.map_map, hstart]
    exact congrArg (Option.any · _) (funext h.inTablePath)
  rw [ReferenceCheck.referencedColumn?, hcall, hhead, f.column?_run,
    ReferenceCheck.referencedColumn?]
  split <;> rfl

theorem qualifiedColumns :
    check'.qualifiedColumns
      = check.qualifiedColumns.map (Prod.map f.name f.token) := by
  have hruns := f.qualifiedRuns_map 0 none check.tokens
  rw [Option.map_none] at hruns
  rw [ReferenceCheck.qualifiedColumns, h.tokens, hruns, List.filterMap_map,
    ReferenceCheck.qualifiedColumns, List.map_filterMap]
  refine congrArg (List.filterMap · _) (funext fun run => ?_)
  rw [Function.comp_apply, h.referencedColumn?, f.qualifier_run, Option.map_map,
    Option.map_map]
  rfl

theorem definedNames : check'.definedNames = check.definedNames := by
  have hafter :=
    f.filter_neighbours (fun pair => pair.1.isKeyword "AS" && pair.2.isName)
      (fun a b => by simp only [f.isKeyword_token, f.isName_token]) check.tokens
  have hupper : (fun pair : Token × Token => pair.2.upper)
        ∘ Prod.map f.token f.token
      = fun pair => pair.2.upper :=
    funext fun pair => f.upper_token pair.2
  have haliases : (check.tables.map f.table).filterMap
        (·.aliasName.map Text.upper)
      = check.tables.filterMap (·.aliasName.map Text.upper) := by
    rw [List.filterMap_map]
    refine congrArg (List.filterMap · _) (funext fun table => ?_)
    have halias : (f.table table).aliasName = table.aliasName.map f.name := rfl
    rw [Function.comp_apply, halias, Option.map_map]
    exact congrArg (Option.map · _) (funext f.upper_name)
  have hnames : (check.resolver.subqueries.map f.subquery).map (·.name)
      = check.resolver.subqueries.map (·.name) := List.map_map
  rw [ReferenceCheck.definedNames, h.selectAliases, h.tokens, h.tables,
    h.resolver.subqueries, ReferenceCheck.definedNames]
  simp only [haliases, hnames]
  refine congrArg (· ++ _ ++ _ ++ _) ((congrArg (List.map _) hafter).trans ?_)
  rw [List.map_map, hupper]

theorem isBareColumn (defined : List String) (previous : Option Token)
    (t : Token) (following : Option Token) :
    check'.isBareColumn defined (previous.map f.token) (f.token t)
        (following.map f.token)
      = check.isBareColumn defined previous t following := by
  have hfollowing :=
    f.any_kind (fun kind => kind == .leftParen || kind == .dot) following
  have hprevious :=
    f.any_token (fun p =>
      p.kind == .dot || p.text == "::" || p.isKeyword "AS"
        || p.isOneOf Keyword.beforeTable)
      (fun p => by
        simp only [f.kind_token, f.text_beq_cast, f.isKeyword_token,
          f.isOneOf_token]) previous
  have hbehind : ((previous.map f.token).any fun p =>
        check'.tables.any (·.stop == p.stop))
      = previous.any fun p => check.tables.any (·.stop == p.stop) := by
    rw [Option.any_map]
    refine congrArg (Option.any · _) (funext fun p => ?_)
    rw [h.tables, List.any_map]
    refine congrArg _ (funext fun table => ?_)
    rw [Function.comp_apply, f.stop_table, f.stop_token_eq]
  rw [ReferenceCheck.isBareColumn, hfollowing, hprevious, hbehind,
    f.isIdentifier_token, f.kind_token, f.isOneOf_text, h.dataTypes,
    h.inTablePath, f.start_token_eq, f.upper_token, ReferenceCheck.isBareColumn]

theorem checksBareColumnsAt (offset : Nat) :
    check'.checksBareColumnsAt offset = check.checksBareColumnsAt offset := by
  rw [ReferenceCheck.checksBareColumnsAt, h.resolver.scopeAt,
    ReferenceCheck.checksBareColumnsAt]
  cases check.resolver.scopeAt offset with
  | main => rfl
  | unstructured => rfl
  | subquery s =>
    have hearlier := h.resolver.visible (.subquery s) offset
    simp only [scope] at hearlier ⊢
    simp only [hearlier, List.any_map]
    rfl

theorem bareColumns (previous : Option Token) (ts : List Token) :
    check'.bareColumns (previous.map f.token) (ts.map f.token)
      = (check.bareColumns previous ts).map f.token := by
  induction ts generalizing previous with
  | nil => rfl
  | cons t ts ih =>
    have hnext := ih (some t)
    rw [Option.map_some] at hnext
    rw [List.map_cons, ReferenceCheck.bareColumns, ReferenceCheck.bareColumns,
      List.head?_map, h.definedNames, h.isBareColumn, f.start_token_eq,
      h.checksBareColumnsAt, hnext]
    split <;> rfl

/-- The first column of a span is the same one in either spelling. -/
theorem firstAlike (offset : Nat) :
    check'.firstAlike check'.qualifiedStarts offset
      = check.firstAlike check.qualifiedStarts offset := by
  have hstarts : check'.qualifiedStarts = check.qualifiedStarts := by
    rw [qualifiedStarts_eq, h.qualifiedColumns, List.map_map,
      qualifiedStarts_eq]
    exact List.map_congr_left fun column _ => f.start_token_eq column.2
  simp only [hstarts, ReferenceCheck.firstAlike, h.resolver.spanAt]

theorem missesQualified (qualifier : String) (t : Token) :
    check'.missesQualified (f.name qualifier, f.token t)
      = check.missesQualified (qualifier, t) := by
  rw [ReferenceCheck.missesQualified, f.start_token_eq, h.firstAlike,
    f.name_token, h.resolver.bindingsAt, h.resolver.lookupQualified_misses,
    ReferenceCheck.missesQualified]

theorem missesBare (t : Token) :
    check'.missesBare (f.token t) = check.missesBare t := by
  rw [ReferenceCheck.missesBare, f.start_token_eq, f.name_token,
    h.resolver.bindingsAt, h.resolver.lookupUnqualified_misses,
    ReferenceCheck.missesBare]

/-- The same columns are missed in either spelling. -/
theorem missedColumns :
    check'.missedColumns = check.missedColumns.map f.token := by
  have hqualified : check'.missesQualified ∘ Prod.map f.name f.token
      = check.missesQualified :=
    funext fun column => h.missesQualified column.1 column.2
  have hbare : check'.missesBare ∘ f.token = check.missesBare :=
    funext h.missesBare
  have hcolumns := h.bareColumns none check.tokens
  rw [Option.map_none] at hcolumns
  rw [ReferenceCheck.missedColumns, h.qualifiedColumns, h.tokens, hcolumns,
    List.filter_map, List.filter_map, hqualified, hbare,
    ReferenceCheck.missedColumns, List.map_append, List.map_map, List.map_map]
  rfl

theorem unknownTable?
    (hlocate : ∀ offset length,
      Span.locate check'.text offset length
        = Span.locate check.text offset length) (table : TableRef) :
    (check'.unknownTable? (f.table table)).map Finding.mark
      = (check.unknownTable? table).map Finding.mark := by
  have hsubquery : (check'.resolver.subqueries.any fun s =>
        s.name == (f.table table).upper)
      = check.resolver.subqueries.any fun s => s.name == table.upper := by
    rw [h.resolver.subqueries, List.any_map, f.upper_table]
    rfl
  have htable : check'.catalog.hasTable (f.table table).name
      = check.catalog.hasTable table.name := by
    have hname : foldAscii (f.table table).name = foldAscii table.name :=
      f.fold_name table.name
    rw [h.catalog, Catalog.hasTable, ← table?_foldAscii, hname,
      table?_foldAscii, Catalog.hasTable]
  rw [ReferenceCheck.unknownTable?, hsubquery, htable,
    ReferenceCheck.unknownTable?]
  split
  · rfl
  · simp only [Option.map_some, Finding.mark, Finding.code, Finding.severity,
      Finding.locate, f.start_table, f.stop_table, hlocate, Problem.code,
      Problem.severity]

theorem unknownTables
    (hlocate : ∀ offset length,
      Span.locate check'.text offset length
        = Span.locate check.text offset length) :
    check'.unknownTables.map Finding.mark
      = check.unknownTables.map Finding.mark := by
  rw [ReferenceCheck.unknownTables, h.tables, List.filterMap_map,
    List.map_filterMap, ReferenceCheck.unknownTables, List.map_filterMap]
  exact congrArg (List.filterMap · _) (funext (h.unknownTable? hlocate))

end Respelling.Checks

end QueryAssist
