import QueryAssist.Finding.Reference
import QueryAssist.Proofs.Query.SelectItem
import QueryAssist.Proofs.Text.LetterCase

/-!
# Tokens recast

A change of tokens is a recasting if it keeps their kinds, changes nothing about
their letters but the case, and moves their places in one way. Keywords are
compared without regard to case, so whatever is read off the tokens is read off
the recast ones too, with its names and places changed in the same way.
-/

namespace QueryAssist

open Text

/-- A change of tokens, with the change of names and of offsets that
goes with it. -/
structure Recasting where
  token : Token → Token
  name : String → String
  place : Nat → Nat
  kind_token : ∀ t, (token t).kind = t.kind
  fold_token : ∀ t, foldAscii (token t).text = foldAscii t.text
  name_token : ∀ t, (token t).name = name t.name
  start_token : ∀ t, (token t).start = place t.start
  stop_token : ∀ t, (token t).stop = place t.stop
  fold_name : ∀ s, foldAscii (name s) = foldAscii s
  /-- A path is changed name by name. -/
  path_name : ∀ names,
    String.intercalate "." (names.map name)
      = name (String.intercalate "." names)
  lastSegment_name : ∀ s, lastSegment (name s) = name (lastSegment s)

namespace Recasting

/-- Tokens left as they are. -/
def refl : Recasting where
  token := id
  name := id
  place := id
  kind_token _ := rfl
  fold_token _ := rfl
  name_token _ := rfl
  start_token _ := rfl
  stop_token _ := rfl
  fold_name _ := rfl
  path_name names := by rw [List.map_id, id]
  lastSegment_name _ := rfl

variable (f : Recasting)

/-! ## Tokens -/

theorem upper_name (s : String) : Text.upper (f.name s) = Text.upper s := by
  rw [← upper_foldAscii, f.fold_name, upper_foldAscii]

theorem upper_token (t : Token) : (f.token t).upper = t.upper := by
  rw [Token.upper, f.name_token, f.upper_name, Token.upper]

theorem isOneOf_text (words : List String) (t : Token) :
    Keyword.isOneOf words (f.token t).text = Keyword.isOneOf words t.text := by
  rw [Keyword.isOneOf, f.fold_token, Keyword.isOneOf]

theorem isOneOf_token (words : List String) (t : Token) :
    (f.token t).isOneOf words = t.isOneOf words := by
  rw [Token.isOneOf, f.kind_token, f.isOneOf_text, Token.isOneOf]

theorem isKeyword_token (keyword : String) (t : Token) :
    (f.token t).isKeyword keyword = t.isKeyword keyword :=
  f.isOneOf_token [keyword] t

theorem isClause_text (t : Token) :
    Keyword.isClause (f.token t).text = Keyword.isClause t.text :=
  f.isOneOf_text Keyword.clauses t

theorem text_beq_cast (t : Token) :
    ((f.token t).text == "::") = (t.text == "::") := by
  rw [← foldAscii_beq_cast, f.fold_token, foldAscii_beq_cast]

theorem isName_token (t : Token) : (f.token t).isName = t.isName := by
  rw [Token.isName, f.kind_token, Token.isName]

theorem isIdentifier_token (t : Token) :
    (f.token t).isIdentifier = t.isIdentifier := by
  have hreserved : Keyword.isReserved (f.token t).text
      = Keyword.isReserved t.text := f.isOneOf_text Keyword.reserved t
  rw [Token.isIdentifier, f.kind_token, hreserved, Token.isIdentifier]

theorem endsExpression_token (t : Token) :
    (f.token t).endsExpression = t.endsExpression := by
  rw [Token.endsExpression, f.isName_token, f.kind_token, Token.endsExpression]

theorem introducesDefinition_token (t : Token) :
    (f.token t).introducesDefinition = t.introducesDefinition := by
  rw [Token.introducesDefinition, f.isOneOf_token, f.kind_token,
    Token.introducesDefinition]

/-- A question that recasting does not touch has the same answer about a token
that may be missing. -/
theorem any_token (p : Token → Bool) (hp : ∀ t, p (f.token t) = p t)
    (t : Option Token) : (t.map f.token).any p = t.any p := by
  cases t with
  | none => rfl
  | some t => exact hp t

theorem any_kind (p : TokenKind → Bool) (t : Option Token) :
    ((t.map f.token).any fun t => p t.kind) = t.any fun t => p t.kind :=
  f.any_token (fun t => p t.kind) (fun t => congrArg p (f.kind_token t)) t

/-- Neighbours are recast together. -/
theorem filter_neighbours (p : Token × Token → Bool)
    (hp : ∀ a b, p (f.token a, f.token b) = p (a, b)) (ts : List Token) :
    ((ts.map f.token).zip (ts.map f.token).tail).filter p
      = ((ts.zip ts.tail).filter p).map (Prod.map f.token f.token) := by
  have hcomp : p ∘ Prod.map f.token f.token = p :=
    funext fun pair => hp pair.1 pair.2
  rw [← List.map_tail, List.zip_map, List.filter_map, hcomp]

/-! ## Paths -/

theorem pathTail_map (ts : List Token) :
    pathTail (ts.map f.token) = pathTail ts := by
  fun_induction pathTail ts with
  | case1 dot t rest h ih =>
    simp [pathTail, f.kind_token, f.isName_token, h, ih]
  | case2 dot t rest h => simp [pathTail, f.kind_token, f.isName_token, h]
  | case3 ts h =>
    rcases ts with _ | ⟨dot, _ | ⟨t, rest⟩⟩
    · rfl
    · rfl
    · exact absurd rfl (h dot t rest)

theorem pathNames_map (ts : List Token) :
    pathNames (ts.map f.token) = (pathNames ts).map (List.map f.name) := by
  fun_induction pathNames ts with
  | case1 => rfl
  | case2 t h => simp [pathNames, f.isName_token, f.name_token, h]
  | case3 t h => simp [pathNames, f.isName_token, h]
  | case4 t dot rest h ih =>
    simp only [List.map_cons, pathNames, f.isName_token, f.kind_token,
      f.name_token, h, if_true, ih, Option.map_map]
    rfl
  | case5 t dot rest h => simp [pathNames, f.isName_token, f.kind_token, h]

theorem dottedPath_map (ts : List Token) :
    dottedPath (ts.map f.token) = (dottedPath ts).map f.name := by
  rw [dottedPath, f.pathNames_map, dottedPath, Option.map_map, Option.map_map]
  exact congrArg (Option.map · (pathNames ts)) (funext f.path_name)

theorem joinNames_map (ts : List Token) :
    joinNames (ts.map f.token) = f.name (joinNames ts) := by
  have hdots : (fun t : Token => t.kind != .dot) ∘ f.token
      = fun t => t.kind != .dot :=
    funext fun t => by rw [Function.comp_apply, f.kind_token]
  have hnames : Token.name ∘ f.token = f.name ∘ Token.name :=
    funext f.name_token
  rw [joinNames, List.filter_map, List.map_map, hdots, hnames, ← List.map_map,
    f.path_name, joinNames]

/-! ## Table references -/

/-- The reference with its names and places changed. -/
def table (table : TableRef) : TableRef :=
  { name := f.name table.name
    aliasName := table.aliasName.map f.name
    start := f.place table.start
    stop := f.place table.stop }

theorem upper_table (table : TableRef) : (f.table table).upper = table.upper :=
  f.upper_name table.name

theorem shortName_table (table : TableRef) :
    (f.table table).shortName = f.name table.shortName :=
  f.lastSegment_name table.name

theorem readAlias_map (ts : List Token) :
    readAlias (ts.map f.token)
      = ((readAlias ts).1.map f.name, (readAlias ts).2) := by
  rcases ts with _ | ⟨t, _ | ⟨a, rest⟩⟩
  · rfl
  · simp only [List.map_cons, List.map_nil, readAlias, f.isKeyword_token,
      f.isIdentifier_token, f.isClause_text, f.name_token]
    split
    · rfl
    · split <;> rfl
  · simp only [List.map_cons, readAlias, f.isKeyword_token,
      f.isIdentifier_token, f.isClause_text, f.isName_token, f.name_token]
    split
    · split <;> rfl
    · split <;> rfl

theorem readTableRef_map (ts : List Token) :
    readTableRef (ts.map f.token)
      = (readTableRef ts).map (Prod.map f.table id) := by
  cases ts with
  | nil => rfl
  | cons first rest =>
    have hpath := f.dottedPath_map (first :: rest.take (pathTail rest))
    have hlast : (f.token first
          :: (rest.take (pathTail rest)).map f.token).getLast?
        = (first :: rest.take (pathTail rest)).getLast?.map f.token := by
      rw [← List.map_cons, List.getLast?_map]
    rw [List.map_cons] at hpath
    simp only [List.map_cons, readTableRef, f.isIdentifier_token,
      f.pathTail_map, ← List.map_drop, ← List.map_take, List.head?_map,
      f.any_kind (· == .leftParen), f.readAlias_map, hpath, hlast]
    split
    · rfl
    · split
      · rfl
      · cases dottedPath (first :: rest.take (pathTail rest)) with
        | none => rfl
        | some name =>
          cases (first :: rest.take (pathTail rest)).getLast? with
          | none => rfl
          | some last =>
            simp only [Option.map_some, Option.bind_eq_bind, Option.bind_some,
              Prod.map_apply, id, table, f.start_token, f.stop_token]

theorem readTableList_map (commas : Bool) (skip : Nat) (ts : List Token) :
    readTableList commas skip (ts.map f.token)
      = (readTableList commas skip ts).map f.table := by
  induction ts generalizing skip with
  | nil => rfl
  | cons t ts ih =>
    cases skip with
    | succ k => exact ih k
    | zero =>
      rw [List.map_cons, readTableList, readTableList, f.isKeyword_token]
      generalize (if t.isKeyword "ONLY" then 1 else 0) = only
      simp only [← List.map_cons, ← List.map_drop, f.readTableRef_map]
      rcases readTableRef ((t :: ts).drop only) with _ | ⟨table, used⟩
      · rfl
      · simp only [Option.map_some, Prod.map_apply, id, List.map_cons,
          List.head?_map, f.any_kind (· == .comma), ih]
        split
        · rfl
        · rfl

theorem tableRefsFrom_map (previous : Option Token) (calls : List Bool)
    (ts : List Token) :
    tableRefsFrom (previous.map f.token) calls (ts.map f.token)
      = (tableRefsFrom previous calls ts).map f.table := by
  induction ts generalizing previous calls with
  | nil => rfl
  | cons t ts ih =>
    have hcall :=
      f.any_token (·.isOneOf Keyword.withFromArgument)
        (f.isOneOf_token _) previous
    have hnext := ih (some t)
    rw [Option.map_some] at hnext
    rw [List.map_cons, tableRefsFrom, tableRefsFrom, f.kind_token]
    split
    · rw [hcall, hnext]
    · rw [hnext]
    · simp only [f.isKeyword_token, hnext, List.map_append, f.readTableList_map]
      split
      · rfl
      · rfl

theorem tableRefs_map (ts : List Token) :
    tableRefs (ts.map f.token) = (tableRefs ts).map f.table :=
  f.tableRefsFrom_map none [] ts

/-! ## Select lists -/

theorem afterSelect_map (depth : Nat) (ts : List Token) :
    afterSelect depth (ts.map f.token)
      = (afterSelect depth ts).map (List.map f.token) := by
  induction ts generalizing depth with
  | nil => rfl
  | cons t ts ih =>
    rw [List.map_cons, afterSelect, afterSelect, f.kind_token]
    split
    · exact ih _
    · exact ih _
    · simp only [f.isKeyword_token, ih]
      split <;> rfl

theorem untilClause_map (depth : Nat) (ts : List Token) :
    untilClause depth (ts.map f.token)
      = (untilClause depth ts).map f.token := by
  induction ts generalizing depth with
  | nil => rfl
  | cons t ts ih =>
    rw [List.map_cons, untilClause, untilClause, f.kind_token]
    split
    · rw [ih, List.map_cons]
    · rw [ih, List.map_cons]
    · simp only [f.isOneOf_token, ih]
      split <;> rfl

theorem consGroup_map (t : Token) (groups : List (List Token)) :
    consGroup (f.token t) (groups.map (List.map f.token))
      = (consGroup t groups).map (List.map f.token) := by
  cases groups <;> rfl

theorem splitCommas_map (depth : Nat) (ts : List Token) :
    splitCommas depth (ts.map f.token)
      = (splitCommas depth ts).map (List.map f.token) := by
  induction ts generalizing depth with
  | nil => rfl
  | cons t ts ih =>
    rw [List.map_cons, splitCommas, splitCommas, f.kind_token]
    split
    · rw [ih, f.consGroup_map]
    · rw [ih, f.consGroup_map]
    · simp only [ih]
      split
      · rfl
      · exact f.consGroup_map t _
    · rw [ih, f.consGroup_map]

theorem enclosed_map (depth : Nat) (ts : List Token) :
    enclosed depth (ts.map f.token) = (enclosed depth ts).map f.token := by
  induction ts generalizing depth with
  | nil => rfl
  | cons t ts ih =>
    rw [List.map_cons, enclosed, enclosed, f.kind_token]
    split
    · rw [ih, List.map_cons]
    · rw [ih]
      split <;> rfl
    · rw [ih, List.map_cons]

theorem dropQuantifier_map (item : List Token) :
    dropQuantifier (item.map f.token) = (dropQuantifier item).map f.token := by
  cases item with
  | nil => rfl
  | cons t ts =>
    rw [List.map_cons, dropQuantifier, dropQuantifier, f.isOneOf_token]
    split <;> rfl

theorem selectItems_map (ts : List Token) :
    selectItems (ts.map f.token) = (selectItems ts).map (List.map f.token) := by
  rw [selectItems, f.afterSelect_map, selectItems]
  cases afterSelect 0 ts with
  | none => rfl
  | some list =>
    simp only [Option.map_some, f.untilClause_map, f.splitCommas_map,
      List.map_map]
    exact List.map_congr_left fun item _ => f.dropQuantifier_map item

theorem wildcardOf_map (item : List Token) :
    wildcardOf (item.map f.token) = wildcardOf item := by
  rw [wildcardOf, ← List.map_reverse, wildcardOf]
  rcases item.reverse with _ | ⟨last, _ | ⟨dot, qualifier⟩⟩
  · rfl
  · simp only [List.map_cons, List.map_nil, f.kind_token]
  · simp only [List.map_cons, f.kind_token, ← List.map_reverse,
      f.dottedPath_map, Option.map_map, Function.comp_def, f.upper_name]

theorem selectRuns_map (ts : List Token) :
    selectRuns (ts.map f.token) = (selectRuns ts).map (List.map f.token) := by
  induction ts with
  | nil => rfl
  | cons t ts ih =>
    have hrun := f.enclosed_map 0 (t :: ts)
    rw [List.map_cons] at hrun
    rw [List.map_cons, selectRuns, selectRuns, ih, hrun, f.isKeyword_token,
      List.map_append]
    split <;> rfl

/-! ## Definitions -/

theorem groupLength_map (depth : Nat) (ts : List Token) :
    groupLength depth (ts.map f.token) = groupLength depth ts := by
  induction ts generalizing depth with
  | nil => rfl
  | cons t ts ih => simp only [List.map_cons, groupLength, f.kind_token, ih]

theorem readColumnList_map (ts : List Token) :
    readColumnList (ts.map f.token)
      = (readColumnList ts).map
        (Prod.map (Option.map (List.map f.name)) (List.map f.token)) := by
  cases ts with
  | nil => rfl
  | cons t ts =>
    have hisName : Token.isName ∘ f.token = Token.isName :=
      funext f.isName_token
    have hname : Token.name ∘ f.token = f.name ∘ Token.name :=
      funext f.name_token
    simp only [List.map_cons, readColumnList, f.kind_token, f.groupLength_map]
    split
    · cases groupLength 0 ts with
      | none => rfl
      | some n =>
        simp only [Option.bind_eq_bind, Option.bind_some, Option.map_some,
          Prod.map_apply, ← List.map_take, ← List.map_drop, List.filter_map,
          List.map_map, hisName, hname]
    · rfl

theorem dropKeyword_map (keyword : String) (ts : List Token) :
    dropKeyword keyword (ts.map f.token)
      = (dropKeyword keyword ts).map f.token := by
  cases ts with
  | nil => rfl
  | cons t ts =>
    rw [List.map_cons, dropKeyword, dropKeyword, f.isKeyword_token]
    split <;> rfl

theorem readBodyOpening_map (ts : List Token) :
    readBodyOpening (ts.map f.token)
      = (readBodyOpening ts).map (Prod.map f.token (List.map f.token)) := by
  cases ts with
  | nil => rfl
  | cons t ts =>
    simp only [List.map_cons, readBodyOpening, f.isKeyword_token,
      f.dropKeyword_map]
    split
    · cases dropKeyword "MATERIALIZED" (dropKeyword "NOT" ts) with
      | nil => rfl
      | cons opening rest =>
        simp only [List.map_cons, f.kind_token]
        split <;> rfl
    · rfl

/-! ## Qualified runs -/

open ReferenceCheck

/-- The run with its tokens changed. -/
def run (run : QualifiedRun) : QualifiedRun :=
  { segments := run.segments.map f.token,
    following := run.following.map f.token }

theorem column?_run (run : QualifiedRun) :
    (f.run run).column? = run.column?.map f.token := List.getLast?_map

theorem qualifier_run (run : QualifiedRun) :
    (f.run run).qualifier = f.name run.qualifier := by
  rw [QualifiedRun.qualifier, Recasting.run, ← List.map_dropLast,
    ← List.map_dropLast, f.joinNames_map, QualifiedRun.qualifier]

theorem qualifiedRuns_map (skip : Nat) (previous : Option Token)
    (ts : List Token) :
    qualifiedRuns skip (previous.map f.token) (ts.map f.token)
      = (qualifiedRuns skip previous ts).map f.run := by
  induction ts generalizing skip previous with
  | nil => rfl
  | cons t ts ih =>
    have hnext := fun skip => ih skip (some t)
    simp only [Option.map_some] at hnext
    cases skip with
    | succ k => exact hnext k
    | zero =>
      rw [List.map_cons, qualifiedRuns, qualifiedRuns]
      simp only [f.isName_token, f.pathTail_map, f.any_kind (· == .dot),
        ← List.map_drop, ← List.map_take, hnext, List.head?_map]
      split
      · rfl
      · rfl

end Recasting

end QueryAssist
