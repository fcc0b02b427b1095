import QueryAssist.Proofs.Query.Recasting
import QueryAssist.Proofs.Scope.Respelling
import QueryAssist.Proofs.Token.LetterCase

/-!
# Subqueries in upper case

Raising the ASCII letters of a text raises the names and the expressions of the
columns that its subqueries declare. Where subqueries stand, what they are
called and what they read stays as it is.
-/

namespace QueryAssist

open Text

/-- The column with all its names in upper case. -/
def OutputColumn.raise (column : OutputColumn) : OutputColumn :=
  { name := foldAscii column.name
    expression := column.expression.map foldAscii
    sourceTable := column.sourceTable.map foldAscii
    sourceColumn := column.sourceColumn.map foldAscii }

/-- Raising the letters of every token. -/
def Respelling.raising : Respelling where
  token := Token.raise
  name := foldAscii
  place := id
  column := OutputColumn.raise
  kind_token _ := rfl
  fold_token t := foldAscii_foldAscii t.text
  name_token := Token.raise_name
  start_token _ := rfl
  stop_token _ := rfl
  fold_name := foldAscii_foldAscii
  path_name := foldAscii_intercalate
  lastSegment_name := lastSegment_foldAscii
  place_eq _ := rfl
  name_column _ := rfl

open Respelling (raising)

namespace Token

variable (t : Token)

@[simp]
theorem raise_upper : t.raise.upper = t.upper := raising.upper_token t

@[simp]
theorem raise_isOneOf (words : List String) :
    t.raise.isOneOf words = t.isOneOf words := raising.isOneOf_token words t

@[simp]
theorem raise_isKeyword (keyword : String) :
    t.raise.isKeyword keyword = t.isKeyword keyword :=
  raising.isKeyword_token keyword t

@[simp]
theorem raise_isName : t.raise.isName = t.isName := raising.isName_token t

@[simp]
theorem raise_isIdentifier : t.raise.isIdentifier = t.isIdentifier :=
  raising.isIdentifier_token t

@[simp]
theorem raise_endsExpression : t.raise.endsExpression = t.endsExpression :=
  raising.endsExpression_token t

end Token

theorem dottedPath_raise (tokens : List Token) :
    dottedPath (tokens.map Token.raise) = (dottedPath tokens).map foldAscii :=
  raising.dottedPath_map tokens

/-! ## Select lists -/

theorem exprRange_raise (expr : List Token) :
    exprRange (expr.map Token.raise) = exprRange expr := by
  rw [exprRange, List.head?_map, List.getLast?_map, Option.map_map,
    Option.map_map]
  rfl

theorem aliased_raise (text : Text) (name : Token) (expr : List Token) :
    aliased (raise text) name.raise (expr.map Token.raise)
      = (aliased text name expr).raise := by
  have hrange := exprRange_raise expr
  simp only [exprRange, Prod.mk.injEq] at hrange
  simp only [aliased, hrange, slice_raise, trim_raise, ← List.map_reverse,
    Token.raise_name, ← foldAscii_ofList]
  rcases expr.reverse with _ | ⟨t, _ | ⟨dot, path⟩⟩
  · rfl
  · simp only [List.map_cons, List.map_nil, Token.raise_isIdentifier,
      Token.raise_name]
    split <;> rfl
  · simp only [List.map_cons, Token.raise_kind, Token.raise_isName,
      Token.raise_name, ← List.map_reverse, dottedPath_raise]
    split
    · cases dottedPath path.reverse with
      | none => rfl
      | some qualifier => rfl
    · rfl

theorem columnOf_raise (text : Text) (item : List Token) :
    columnOf (raise text) (item.map Token.raise)
      = (columnOf text item).map OutputColumn.raise := by
  rw [columnOf, ← List.map_reverse, columnOf]
  rcases item.reverse with _ | ⟨last, _ | ⟨before, earlier⟩⟩
  · rfl
  · simp only [List.map_cons, List.map_nil, Token.raise_isName,
      Token.raise_isIdentifier, Token.raise_name]
    split
    · rfl
    · split <;> rfl
  · have hexpr : (before.raise :: earlier.map Token.raise).reverse
        = (before :: earlier).reverse.map Token.raise := by
      rw [← List.map_cons, List.map_reverse]
    simp only [List.map_cons, Token.raise_isName, Token.raise_isIdentifier,
      Token.raise_isKeyword, Token.raise_endsExpression, List.isEmpty_map,
      Token.raise_kind, hexpr, ← List.map_reverse, dottedPath_raise,
      aliased_raise, Token.raise_name]
    split
    · rfl
    · split
      · rfl
      · split
        · rw [Option.map_map, Option.map_map]
          rfl
        · split <;> rfl

/-- The projection with the names of its columns in upper case. -/
def Projection.raise (projection : Projection) : Projection :=
  { projection with columns := projection.columns.map OutputColumn.raise }

theorem projectionOf_raise (text : Text) (tokens : List Token) :
    projectionOf (raise text) (tokens.map Token.raise)
      = (projectionOf text tokens).raise := by
  have hitems : selectItems (tokens.map Token.raise)
      = (selectItems tokens).map (List.map Token.raise) :=
    raising.selectItems_map tokens
  rw [projectionOf_eq, projectionOf_eq, hitems]
  induction selectItems tokens with
  | nil => rfl
  | cons item items ih =>
    have hwildcard : wildcardOf (item.map Token.raise) = wildcardOf item :=
      raising.wildcardOf_map item
    rw [List.map_cons, List.foldr_cons, List.foldr_cons, ih, Projection.addItem,
      Projection.addItem, hwildcard, columnOf_raise]
    cases wildcardOf item with
    | some wildcard => rfl
    | none =>
      cases columnOf text item with
      | none => rfl
      | some column => rfl

/-- Names that select lists give are told in upper case. -/
theorem selectAliases_raise (text : Text) (tokens : List Token) :
    selectAliases (raise text) (tokens.map Token.raise)
      = selectAliases text tokens := by
  have hruns : selectRuns (tokens.map Token.raise)
      = (selectRuns tokens).map (List.map Token.raise) :=
    raising.selectRuns_map tokens
  have hsome : (fun column : OutputColumn => column.expression.isSome)
        ∘ OutputColumn.raise
      = fun column => column.expression.isSome :=
    funext fun column => Option.isSome_map
  have hupper : (fun column : OutputColumn => Text.upper column.name)
        ∘ OutputColumn.raise
      = fun column => Text.upper column.name :=
    funext fun column => upper_foldAscii column.name
  rw [selectAliases_eq, selectAliases_eq, hruns, List.flatMap_map]
  refine congrArg (List.flatMap · _) (funext fun run => ?_)
  rw [projectionOf_raise, Projection.raise, List.filter_map, List.map_map,
    hsome, hupper]

/-! ## Definitions -/

theorem declareColumns_raise (declared : Option (List String))
    (inferred : Projection) :
    declareColumns (declared.map (List.map foldAscii)) inferred.raise
      = (declareColumns declared inferred).raise := by
  cases declared with
  | none => rfl
  | some names =>
    simp only [Option.map_some, declareColumns, Projection.raise,
      List.length_map]
    split
    · rw [List.zipWith_map, List.map_zipWith]
      rfl
    · rw [List.map_map, List.map_map]
      rfl

/-- The layout with its tokens in upper case. -/
def Layout.raise (layout : Layout) : Layout :=
  { nameToken := layout.nameToken.raise
    declared := layout.declared.map (List.map foldAscii)
    opening := layout.opening.raise
    close := layout.close
    body := layout.body.map Token.raise }

theorem Layout.subquery_raise (text : Text) (layout : Layout) :
    layout.raise.subquery (Text.raise text)
      = raising.subquery (layout.subquery text) := by
  have htables : (tableRefs (layout.body.map Token.raise)).map TableRef.upper
      = (tableRefs layout.body).map TableRef.upper := by
    have hmap : tableRefs (layout.body.map Token.raise)
        = (tableRefs layout.body).map raising.table :=
      raising.tableRefs_map layout.body
    rw [hmap, List.map_map]
    exact List.map_congr_left fun table _ => raising.upper_table table
  simp only [Layout.subquery, Layout.raise, projectionOf_raise,
    declareColumns_raise, htables, Token.raise_upper]
  rfl

theorem layoutAt_raise (clean : Text) (previous : Option Token)
    (nameToken : Token) (rest : List Token) :
    layoutAt (raise clean) (previous.map Token.raise) nameToken.raise
        (rest.map Token.raise)
      = (layoutAt clean previous nameToken rest).map
        (Prod.map Layout.raise id) := by
  have hprevious : (previous.map Token.raise).any Token.introducesDefinition
      = previous.any Token.introducesDefinition :=
    raising.any_token _ raising.introducesDefinition_token previous
  have hcolumns : readColumnList (rest.map Token.raise)
      = (readColumnList rest).map
        (Prod.map (Option.map (List.map foldAscii)) (List.map Token.raise)) :=
    raising.readColumnList_map rest
  have hopening : ∀ tokens,
      readBodyOpening (tokens.map Token.raise)
        = (readBodyOpening tokens).map
          (Prod.map Token.raise (List.map Token.raise)) :=
    raising.readBodyOpening_map
  have hbefore : ∀ close,
      (fun t : Token => decide (t.start < close)) ∘ Token.raise
        = fun t => decide (t.start < close) :=
    fun _ => rfl
  simp only [layoutAt, Token.raise_isIdentifier, hprevious, hcolumns]
  split
  · rcases readColumnList rest with _ | ⟨declared, afterColumns⟩
    · rfl
    · simp only [Option.map_some, Option.bind_eq_bind, Option.bind_some,
        Prod.map_apply, hopening]
      rcases readBodyOpening afterColumns with _ | ⟨opening, afterOpening⟩
      · rfl
      · simp only [Option.map_some, Option.bind_some, Prod.map_apply,
          matchingParen_raise, Token.raise_start]
        cases clean.matchingParen opening.start with
        | none => rfl
        | some close =>
          simp only [Option.bind_some, Option.map_some, Prod.map_apply, id,
            List.takeWhile_map, hbefore, List.length_map, Layout.raise]
  · rfl

theorem layoutsFrom_raise (clean : Text) (skip : Nat) (previous : Option Token)
    (tokens : List Token) :
    layoutsFrom (raise clean) skip (previous.map Token.raise)
        (tokens.map Token.raise)
      = (layoutsFrom clean skip previous tokens).map Layout.raise := by
  induction tokens generalizing skip previous with
  | nil => rfl
  | cons t ts ih =>
    have hnext := fun skip => ih skip (some t)
    simp only [Option.map_some] at hnext
    cases skip with
    | succ n => exact hnext n
    | zero =>
      rw [List.map_cons, layoutsFrom, layoutsFrom, layoutAt_raise]
      rcases layoutAt clean previous t ts with _ | ⟨layout, used⟩
      · exact hnext 0
      · simp only [Option.map_some, Prod.map_apply, id, hnext, List.map_cons]

/-- The subqueries of a text in upper case are those of the text, with the
columns they declare in upper case. -/
theorem parseSubqueries_raise (text : Text) :
    parseSubqueries (raise text)
      = (parseSubqueries text).map raising.subquery := by
  have hwith : ((tokenize text.sanitize).map Token.raise).any
        (·.isKeyword "WITH")
      = (tokenize text.sanitize).any (·.isKeyword "WITH") := by
    rw [List.any_map]
    exact congrArg _ (funext (raising.isKeyword_token "WITH"))
  have hlayouts : layoutsOf (raise text).sanitize
        (tokenize (raise text).sanitize)
      = (layoutsOf text.sanitize (tokenize text.sanitize)).map
        Layout.raise := by
    have hfrom :=
      layoutsFrom_raise text.sanitize 0 none (tokenize text.sanitize)
    rw [Option.map_none] at hfrom
    rw [sanitize_raise, tokenize_raise, layoutsOf, hwith, hfrom, layoutsOf]
    split <;> rfl
  rw [parseSubqueries_eq, parseSubqueries_eq, subqueriesOf_eq, subqueriesOf_eq,
    hlayouts, List.map_map, List.map_map]
  exact List.map_congr_left fun layout _ => layout.subquery_raise text

/-- The document of the text in upper case. -/
def Document.raise (document : Document) : Document :=
  { text := Text.raise document.text
    clean := Text.raise document.clean
    tokens := document.tokens.map Token.raise
    subqueries := document.subqueries.map raising.subquery }

theorem Document.ofText_raise (text : Text) :
    Document.ofText (Text.raise text) = (Document.ofText text).raise := by
  have hclean := sanitize_raise text
  have htokens := tokenize_raise text.sanitize
  have hsubqueries := parseSubqueries_raise text
  rw [parseSubqueries_eq, hclean, htokens] at hsubqueries
  simp only [Document.ofText, hclean, htokens, hsubqueries]
  rfl

end QueryAssist
