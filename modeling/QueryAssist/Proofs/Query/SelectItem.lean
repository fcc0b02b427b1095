import QueryAssist.Proofs.Query.Layout

/-!
# Items of select lists

A select list is cut into items, and each item is a run of neighbouring tokens.
The text is looked at for one kind of item only, a renamed expression, and there
it is cut from the first token of the expression to its last.
-/

namespace QueryAssist

open Text

/-! ## Runs of neighbouring tokens -/

theorem afterSelect_suffix {depth : Nat} {tokens list : List Token}
    (h : afterSelect depth tokens = some list) : list <:+ tokens := by
  fun_induction afterSelect depth tokens with
  | case1 => cases h
  | case2 depth t ts _ ih => exact (ih h).trans (List.suffix_cons t ts)
  | case3 depth t ts _ ih => exact (ih h).trans (List.suffix_cons t ts)
  | case4 depth t ts =>
    cases h
    exact List.suffix_cons t _
  | case5 depth t ts _ _ _ ih => exact (ih h).trans (List.suffix_cons t ts)

theorem untilClause_isPrefix (depth : Nat) (tokens : List Token) :
    untilClause depth tokens <+: tokens := by
  fun_induction untilClause depth tokens with
  | case1 => exact List.prefix_rfl
  | case2 depth t ts _ ih => exact (List.prefix_cons_inj t).2 ih
  | case3 depth t ts _ ih => exact (List.prefix_cons_inj t).2 ih
  | case4 => exact List.nil_prefix
  | case5 depth t ts _ _ _ ih => exact (List.prefix_cons_inj t).2 ih

theorem enclosed_isPrefix (depth : Nat) (tokens : List Token) :
    enclosed depth tokens <+: tokens := by
  fun_induction enclosed depth tokens with
  | case1 => exact List.prefix_rfl
  | case2 depth t ts _ ih => exact (List.prefix_cons_inj t).2 ih
  | case3 => exact List.nil_prefix
  | case4 depth t ts _ _ ih => exact (List.prefix_cons_inj t).2 ih
  | case5 depth t ts _ _ ih => exact (List.prefix_cons_inj t).2 ih

/-- The first group starts with the tokens and every other one is a run
among them. -/
structure GroupsOf (tokens : List Token)
    (groups : List (List Token)) : Prop where
  first : ∃ g gs, groups = g :: gs ∧ g <+: tokens
  runs : ∀ g ∈ groups, g <:+: tokens

namespace GroupsOf

variable {tokens : List Token} {groups : List (List Token)}

theorem nil : GroupsOf [] [[]] :=
  ⟨⟨[], [], rfl, List.prefix_rfl⟩, by simp⟩

theorem consGroup (h : GroupsOf tokens groups) (t : Token) :
    GroupsOf (t :: tokens) (consGroup t groups) := by
  obtain ⟨g, gs, rfl, hg⟩ := h.first
  have hhead : t :: g <+: t :: tokens := (List.prefix_cons_inj t).2 hg
  refine ⟨⟨t :: g, gs, rfl, hhead⟩, ?_⟩
  intro run hrun
  rcases List.mem_cons.1 hrun with rfl | hrun
  · exact hhead.isInfix
  · exact (h.runs run (by simp [hrun])).trans
      (List.suffix_cons t tokens).isInfix

theorem comma (h : GroupsOf tokens groups) (t : Token) :
    GroupsOf (t :: tokens) ([] :: groups) := by
  refine ⟨⟨[], groups, rfl, List.nil_prefix⟩, ?_⟩
  intro run hrun
  rcases List.mem_cons.1 hrun with rfl | hrun
  · exact List.nil_infix
  · exact (h.runs run hrun).trans (List.suffix_cons t tokens).isInfix

end GroupsOf

theorem splitCommas_groups (depth : Nat) (tokens : List Token) :
    GroupsOf tokens (splitCommas depth tokens) := by
  fun_induction splitCommas depth tokens with
  | case1 => exact .nil
  | case2 depth t ts _ ih => exact ih.consGroup t
  | case3 depth t ts _ ih => exact ih.consGroup t
  | case4 t ts _ ih => exact ih.comma t
  | case5 depth t ts _ _ ih => exact ih.consGroup t
  | case6 depth t ts _ _ _ ih => exact ih.consGroup t

theorem dropQuantifier_suffix (item : List Token) :
    dropQuantifier item <:+ item := by
  cases item with
  | nil => exact List.suffix_rfl
  | cons t ts =>
    rw [dropQuantifier]
    split
    · exact List.suffix_cons t ts
    · exact List.suffix_rfl

/-! ## Items -/

/-- The items of the select list of the first `SELECT` outside parentheses. -/
def selectItems (tokens : List Token) : List (List Token) :=
  match afterSelect 0 tokens with
  | none => []
  | some list => (splitCommas 0 (untilClause 0 list)).map dropQuantifier

/-- A projection is read off the items one by one. -/
theorem projectionOf_eq (text : Text) (tokens : List Token) :
    projectionOf text tokens
      = (selectItems tokens).foldr (Projection.addItem text) {} := by
  unfold projectionOf selectItems
  rcases afterSelect 0 tokens with _ | list
  · rfl
  · simp only [List.foldr_map]

theorem selectItems_isInfix {tokens item : List Token}
    (h : item ∈ selectItems tokens) : item <:+: tokens := by
  unfold selectItems at h
  rcases hselect : afterSelect 0 tokens with _ | list
  · simp [hselect] at h
  · rw [hselect] at h
    obtain ⟨group, hgroup, rfl⟩ := List.mem_map.1 h
    have hrun := (splitCommas_groups 0 (untilClause 0 list)).runs group hgroup
    have hitem := (dropQuantifier_suffix group).isInfix.trans hrun
    have hlist :=
      (untilClause_isPrefix 0 list).isInfix.trans
        (afterSelect_suffix hselect).isInfix
    exact hitem.trans hlist

/-! ## Renamed expressions -/

/-- The new name and the expression of an item that renames one, with or
without `AS`. -/
def renamed? (item : List Token) : Option (Token × List Token) :=
  match item.reverse with
  | last :: before :: earlier =>
    if !last.isName then none
    else if before.isKeyword "AS" && !earlier.isEmpty then
      some (last, earlier.reverse)
    else if before.kind == .dot then none
    else if last.isIdentifier && before.endsExpression then
      some (last, (before :: earlier).reverse)
    else none
  | _ => none

/-- A renamed expression is cut out of the text. -/
theorem columnOf_of_renamed {item expr : List Token} {name : Token}
    (h : renamed? item = some (name, expr)) (text : Text) :
    columnOf text item = some (aliased text name expr) := by
  unfold renamed? at h
  unfold columnOf
  generalize item.reverse = reversed at h ⊢
  rcases reversed with _ | ⟨last, _ | ⟨before, earlier⟩⟩
  · cases h
  · cases h
  · simp only at h ⊢
    split at h
    · cases h
    · rename_i hname
      rw [if_neg hname]
      split at h
      · rename_i has
        cases h
        rw [if_pos has]
      · rename_i has
        rw [if_neg has]
        split at h
        · cases h
        · rename_i hdot
          rw [if_neg hdot]
          split at h
          · rename_i hends
            cases h
            rw [if_pos hends]
          · cases h

/-- No other item looks at the text. -/
theorem columnOf_of_not_renamed {item : List Token} (h : renamed? item = none)
    (text text' : Text) : columnOf text item = columnOf text' item := by
  unfold renamed? at h
  unfold columnOf
  generalize item.reverse = reversed at h ⊢
  rcases reversed with _ | ⟨last, _ | ⟨before, earlier⟩⟩
  · rfl
  · rfl
  · simp only at h ⊢
    split at h
    · rename_i hname
      rw [if_pos hname, if_pos hname]
    · rename_i hname
      rw [if_neg hname, if_neg hname]
      split at h
      · cases h
      · rename_i has
        rw [if_neg has, if_neg has]
        split at h
        · rename_i hdot
          rw [if_pos hdot, if_pos hdot]
        · rename_i hdot
          rw [if_neg hdot, if_neg hdot]
          split at h
          · cases h
          · rename_i hends
            rw [if_neg hends, if_neg hends]

/-- A renamed expression has tokens, and they start its item. -/
theorem renamed?_eq_some {item expr : List Token} {name : Token}
    (h : renamed? item = some (name, expr)) : expr ≠ [] ∧ expr <+: item := by
  unfold renamed? at h
  split at h
  · rename_i last before earlier hrev
    have hitem : item = earlier.reverse ++ [before, last] := by
      rw [← List.reverse_reverse item, hrev]
      simp
    split at h
    · cases h
    · split at h
      · rename_i has
        cases h
        simp only [Bool.and_eq_true, Bool.not_eq_true',
          List.isEmpty_eq_false_iff] at has
        exact ⟨by simpa using has.2, [before, name], hitem.symm⟩
      · split at h
        · cases h
        · split at h
          · cases h
            exact ⟨by simp, [name], by rw [hitem]; simp⟩
          · cases h
  · cases h

/-- The range that `aliased` cuts out of the text. -/
def exprRange (expr : List Token) : Nat × Nat :=
  ((expr.head?.map Token.start).getD 0, (expr.getLast?.map Token.stop).getD 0)

theorem aliased_expression (text : Text) (name : Token) (expr : List Token) :
    (aliased text name expr).expression
      = some (String.ofList
        (trim (text.slice (exprRange expr).1 (exprRange expr).2))) := by
  unfold aliased
  split
  · split
    · rfl
    · rfl
  · split
    · split
      · rfl
      · rfl
    · rfl
  · rfl

/-- A renamed column sees nothing of the text but that range. -/
theorem aliased_congr {text other : Text} {expr : List Token}
    (h : other.slice (exprRange expr).1 (exprRange expr).2
      = text.slice (exprRange expr).1 (exprRange expr).2) (name : Token) :
    aliased other name expr = aliased text name expr := by
  simp only [exprRange] at h
  simp only [aliased, h]

theorem exprRange_of_ne_nil {expr : List Token} (h : expr ≠ []) :
    exprRange expr = ((expr.head h).start, (expr.getLast h).stop) := by
  rw [exprRange, List.head?_eq_some_head h, List.getLast?_eq_some_getLast h]
  rfl

/-- Two texts that agree on the renamed expressions of a select list have the
same projection. -/
theorem projectionOf_congr {text other : Text} {tokens : List Token}
    (h : ∀ item ∈ selectItems tokens, ∀ name expr,
      renamed? item = some (name, expr) →
        other.slice (exprRange expr).1 (exprRange expr).2
          = text.slice (exprRange expr).1 (exprRange expr).2) :
    projectionOf other tokens = projectionOf text tokens := by
  rw [projectionOf_eq, projectionOf_eq]
  generalize selectItems tokens = items at h
  induction items with
  | nil => rfl
  | cons item items ih =>
    have hcolumn : columnOf other item = columnOf text item := by
      rcases hrenamed : renamed? item with _ | ⟨name, expr⟩
      · exact columnOf_of_not_renamed hrenamed other text
      · rw [columnOf_of_renamed hrenamed, columnOf_of_renamed hrenamed,
          aliased_congr (h item (by simp) name expr hrenamed)]
    rw [List.foldr_cons, List.foldr_cons, ih fun i hi => h i (by simp [hi])]
    simp only [Projection.addItem, hcolumn]

/-! ## All of a text -/

/-- The tokens from every `SELECT` to the end of what encloses it. -/
def selectRuns : List Token → List (List Token)
  | [] => []
  | t :: ts =>
    (if t.isKeyword "SELECT" then [enclosed 0 (t :: ts)] else [])
      ++ selectRuns ts

theorem selectAliases_eq (text : Text) (tokens : List Token) :
    selectAliases text tokens = (selectRuns tokens).flatMap fun run =>
      ((projectionOf text run).columns.filter (·.expression.isSome)).map
        (Text.upper ·.name) := by
  induction tokens with
  | nil => rfl
  | cons t ts ih =>
    rw [selectAliases, selectRuns, List.flatMap_append, ← ih]
    split
    · simp
    · simp

theorem selectRuns_isInfix {tokens run : List Token}
    (h : run ∈ selectRuns tokens) : run <:+: tokens := by
  induction tokens with
  | nil => simp [selectRuns] at h
  | cons t ts ih =>
    rw [selectRuns] at h
    rcases List.mem_append.1 h with h | h
    · split at h
      · rw [List.mem_singleton.1 h]
        exact (enclosed_isPrefix 0 (t :: ts)).isInfix
      · simp at h
    · exact (ih h).trans (List.suffix_cons t ts).isInfix

/-- All expressions that are cut out of a text: those of the select lists of its
subqueries, and those of every `SELECT`. -/
def renamedExpressions (text : Text) : List (List Token) :=
  let tokens := tokenize text.sanitize
  let lists :=
    (layoutsOf text.sanitize tokens).map Layout.body ++ selectRuns tokens
  ((lists.flatMap selectItems).filterMap renamed?).map Prod.snd

theorem Layout.body_isInfix {clean : Text} {tokens : List Token}
    {layout : Layout}
    (h : layout ∈ layoutsOf clean tokens) : layout.body <:+: tokens := by
  obtain ⟨before, rest, _, _, rfl, -, hat⟩ := mem_layoutsFrom (mem_layoutsOf h)
  obtain ⟨-, -, -, between, after, rfl, hbody, -⟩ := layoutAt_eq_some hat
  have hafter : after
      <:+ before ++ layout.nameToken :: (between ++ layout.opening :: after) :=
    ⟨before ++ layout.nameToken :: (between ++ [layout.opening]), by simp⟩
  rw [hbody]
  exact (List.takeWhile_prefix _).isInfix.trans hafter.isInfix

/-- What is cut out of a text runs from one of its tokens to another. -/
theorem renamedExpressions_isInfix {text : Text} {expr : List Token}
    (h : expr ∈ renamedExpressions text) :
    expr ≠ [] ∧ expr <:+: tokenize text.sanitize := by
  obtain ⟨⟨name, _⟩, hrenamed, rfl⟩ := List.mem_map.1 h
  obtain ⟨item, hitem, hsome⟩ := List.mem_filterMap.1 hrenamed
  obtain ⟨tokens, htokens, hmem⟩ := List.mem_flatMap.1 hitem
  have hrun : tokens <:+: tokenize text.sanitize := by
    rcases List.mem_append.1 htokens with hbody | hselect
    · obtain ⟨layout, hlayout, rfl⟩ := List.mem_map.1 hbody
      exact Layout.body_isInfix hlayout
    · exact selectRuns_isInfix hselect
  obtain ⟨hne, hpre⟩ := renamed?_eq_some hsome
  exact ⟨hne, (hpre.isInfix.trans (selectItems_isInfix hmem)).trans hrun⟩

theorem projectionOf_of_agree {text other : Text}
    (h : ∀ expr ∈ renamedExpressions text,
      other.slice (exprRange expr).1 (exprRange expr).2
        = text.slice (exprRange expr).1 (exprRange expr).2)
    {tokens : List Token}
    (htokens : tokens ∈ (layoutsOf text.sanitize (tokenize text.sanitize)).map
        Layout.body ++ selectRuns (tokenize text.sanitize)) :
    projectionOf other tokens = projectionOf text tokens := by
  refine projectionOf_congr ?_
  intro item hitem name expr hrenamed
  refine h expr (List.mem_map.2 ⟨(name, expr), ?_, rfl⟩)
  exact List.mem_filterMap.2
    ⟨item, List.mem_flatMap.2 ⟨tokens, htokens, hitem⟩, hrenamed⟩

/-- A text is looked at nowhere but at its renamed expressions: one that agrees
with it there gives the same subqueries and the same names in select lists, from
the same tokens. -/
theorem subqueries_of_agree {text other : Text}
    (h : ∀ expr ∈ renamedExpressions text,
      other.slice (exprRange expr).1 (exprRange expr).2
        = text.slice (exprRange expr).1 (exprRange expr).2) :
    subqueriesOf other text.sanitize (tokenize text.sanitize)
        = parseSubqueries text ∧
      selectAliases other (tokenize text.sanitize)
        = selectAliases text (tokenize text.sanitize) := by
  constructor
  · rw [parseSubqueries_eq, subqueriesOf_eq, subqueriesOf_eq]
    refine List.map_congr_left ?_
    intro layout hlayout
    have hbody :=
      projectionOf_of_agree h
        (List.mem_append_left _ (List.mem_map_of_mem hlayout))
    simp only [Layout.subquery, hbody]
  · rw [selectAliases_eq, selectAliases_eq, List.flatMap_def, List.flatMap_def]
    refine congrArg List.flatten (List.map_congr_left ?_)
    intro run hrun
    rw [projectionOf_of_agree h (List.mem_append_right _ hrun)]

end QueryAssist
