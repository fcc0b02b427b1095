import QueryAssist.Proofs.Scope.Span
import QueryAssist.Scope.Lookup

/-!
# Expansion of wildcards

The columns of a subquery are its own and those of its wildcards, which lead to
tables and to subqueries defined earlier. The recursion over these ends because
each step goes to an earlier definition. The expansion that is run also keeps
the names it comes through and stops at one of them; it never meets one, because
it only ever goes to the first subquery of a name. So it lists what the plain
recursion lists.
-/

namespace QueryAssist

open Text

namespace Resolver

variable {r : Resolver} {text : Text} {s inner : Subquery} {target : String}

/-! ## The plain recursion -/

/-- The paths that the wildcards of a subquery stand for, in order. -/
def expandedPaths (r : Resolver) (s : Subquery) : List String :=
  s.wildcards.flatMap (wildcardTargets (r.bodyBindings s) s)

theorem mem_of_findSubquery {subqueries : List Subquery} {name : String}
    (h : findSubquery subqueries name = some s) : s ∈ subqueries :=
  List.mem_of_find?_eq_some h

theorem findSubquery_of_source? {visible : List Subquery}
    (h : r.source? target visible = some (.subquery inner)) :
    findSubquery visible target = some inner := by
  unfold source? at h
  split at h
  · rename_i found hfound
    cases h
    exact hfound
  · rcases hcatalog : r.catalog.bind (·.table? target) with _ | table
      <;> simp [hcatalog] at h

/-- A path that stands for a subquery leads to an earlier definition. -/
theorem start_lt_of_source?
    (h : r.source? target (r.declaredBefore s) = some (.subquery inner)) :
    inner ∈ r.subqueries ∧ inner.start < s.start := by
  have hmem := mem_of_findSubquery (findSubquery_of_source? h)
  simpa [declaredBefore] using hmem

/-- Every column of a subquery: those it names itself, and then for each
path of its wildcards those of the table or of the earlier subquery that it
stands for. -/
def plainColumns (r : Resolver) (s : Subquery) : ColumnList :=
  (declaredColumns s).append <| .concat <| (r.expandedPaths s).map fun target =>
    match _hsource : r.source? target (r.declaredBefore s) with
    | some (.table table) => tableColumns table
    | some (.subquery inner) => r.plainColumns inner
    | none => .unknown
termination_by s.start
decreasing_by exact (start_lt_of_source? _hsource).2

/-- The columns of what a path stands for in the body of a subquery, when
`columnsOf` gives those of subqueries. -/
def pathColumns (r : Resolver) (columnsOf : Subquery → ColumnList)
    (s : Subquery) (target : String) : ColumnList :=
  match r.source? target (r.declaredBefore s) with
  | some (.table table) => tableColumns table
  | some (.subquery inner) => columnsOf inner
  | none => .unknown

theorem plainColumns_eq (r : Resolver) (s : Subquery) :
    r.plainColumns s
      = (declaredColumns s).append
        (.concat
          ((r.expandedPaths s).map (r.pathColumns r.plainColumns s))) := by
  rw [plainColumns]
  have hpath : ∀ target, (match h : r.source? target (r.declaredBefore s) with
      | some (.table table) => tableColumns table
      | some (.subquery inner) => r.plainColumns inner
      | none => .unknown) = r.pathColumns r.plainColumns s target := by
    intro target
    unfold pathColumns
    split <;> rename_i hsource <;> simp only [hsource]
  simp only [hpath]

theorem pathColumns_congr {columnsOf columnsOf' : Subquery → ColumnList}
    (h : ∀ inner,
      r.source? target (r.declaredBefore s) = some (.subquery inner) →
        columnsOf inner = columnsOf' inner) :
    r.pathColumns columnsOf s target = r.pathColumns columnsOf' s target := by
  unfold pathColumns
  split
  · rfl
  · rename_i inner hsource
    exact h inner hsource
  · rfl

/-! ## First of its name -/

/-- No earlier subquery has the name. -/
def IsFirst (r : Resolver) (s : Subquery) : Prop :=
  ∀ earlier ∈ r.subqueries, earlier.name = s.name → s.start ≤ earlier.start

theorem starts_increase (htext : r.document = Document.ofText text) :
    r.subqueries.Pairwise (·.start < ·.start) := by
  rw [subqueries_eq htext]
  refine (List.Pairwise.and_mem.1 (parseSubqueries_ordered text)).imp ?_
  rintro s later ⟨hs, -, hle⟩
  exact Nat.lt_of_lt_of_le (start_lt_stop hs) hle

/-- Of two definitions, the one that starts first stops before the
other starts. -/
theorem stop_le_start (htext : r.document = Document.ofText text)
    {earlier : Subquery} (hearlier : earlier ∈ r.subqueries)
    (hs : s ∈ r.subqueries)
    (hlt : earlier.start < s.start) : earlier.stop ≤ s.start := by
  have hstarts := starts_increase htext
  have hstops := parseSubqueries_ordered text
  rw [← subqueries_eq htext] at hstops
  obtain ⟨before, after, hsplit⟩ := List.append_of_mem hearlier
  rw [hsplit] at hstarts hstops hs
  rcases List.mem_append.1 hs with hin | hin
  · have := (List.pairwise_append.1 hstarts).2.2 s hin earlier (by simp)
    omega
  · rcases List.mem_cons.1 hin with rfl | hin
    · omega
    · exact (List.pairwise_cons.1 (List.pairwise_append.1 hstops).2.1).1 s hin

theorem visible_sublist (r : Resolver) (scope : Scope) (offset : Nat) :
    (r.visible scope offset).Sublist r.subqueries := by
  cases scope with
  | subquery => exact List.filter_sublist
  | main => exact List.Sublist.refl _
  | unstructured => exact List.filter_sublist

/-- The subqueries that can be named include all that are defined before
one of them. -/
theorem visible_of_earlier (htext : r.document = Document.ofText text)
    {scope : Scope} {offset : Nat} (hs : s ∈ r.visible scope offset)
    {earlier : Subquery} (hearlier : earlier ∈ r.subqueries)
    (hlt : earlier.start < s.start) : earlier ∈ r.visible scope offset := by
  cases scope with
  | subquery current =>
    simp only [visible, List.mem_filter, decide_eq_true_eq] at hs ⊢
    exact ⟨hearlier, by omega⟩
  | main => exact hearlier
  | unstructured =>
    simp only [visible, List.mem_filter, decide_eq_true_eq] at hs ⊢
    have hstop := start_lt_stop (subqueries_eq htext ▸ hs.1)
    have hbefore := stop_le_start htext hearlier hs.1 hlt
    exact ⟨hearlier, by omega⟩

/-- What a name stands for is the first subquery of its name, if all that come
before it can be named too. -/
theorem isFirst_of_findSubquery (htext : r.document = Document.ofText text)
    {visible : List Subquery} (hsub : visible.Sublist r.subqueries)
    (hclosed : ∀ earlier ∈ r.subqueries,
      ∀ later ∈ visible, earlier.start < later.start → earlier ∈ visible)
    (h : findSubquery visible target = some s) : r.IsFirst s := by
  intro earlier hearlier hname
  refine Nat.le_of_not_lt ?_
  intro hlt
  have hmem := hclosed earlier hearlier s (mem_of_findSubquery h) hlt
  obtain ⟨hfound, before, after, hsplit, hbefore⟩ :=
    List.find?_eq_some_iff_append.1 h
  have hmatches : (earlier.name == upper target) = true := by
    rw [hname]; exact hfound
  have hord := (starts_increase htext).sublist hsub
  rw [hsplit] at hmem hord
  rcases List.mem_append.1 hmem with hin | hin
  · have := hbefore earlier hin
    simp [hmatches] at this
  · rcases List.mem_cons.1 hin with rfl | hin
    · omega
    · have :=
        (List.pairwise_cons.1 (List.pairwise_append.1 hord).2.1).1 earlier hin
      omega

theorem isFirst_of_source?_declaredBefore
    (htext : r.document = Document.ofText text)
    (h : r.source? target (r.declaredBefore s) = some (.subquery inner)) :
    r.IsFirst inner := by
  refine isFirst_of_findSubquery htext List.filter_sublist ?_
    (findSubquery_of_source? h)
  intro earlier hearlier later hlater hlt
  simp only [List.mem_filter, decide_eq_true_eq] at hlater ⊢
  exact ⟨hearlier, by omega⟩

theorem isFirst_of_source?_visible (htext : r.document = Document.ofText text)
    {scope : Scope} {offset : Nat}
    (h : r.source? target (r.visible scope offset) = some (.subquery inner)) :
    r.IsFirst inner := by
  refine isFirst_of_findSubquery htext (visible_sublist r scope offset) ?_
    (findSubquery_of_source? h)
  intro earlier hearlier later hlater hlt
  exact visible_of_earlier htext hlater hearlier hlt

/-! ## The expansion that is run -/

/-- Fewer subqueries are defined before an earlier one. -/
theorem length_declaredBefore_lt (hinner : inner ∈ r.subqueries)
    (hlt : inner.start < s.start) :
    (r.declaredBefore inner).length < (r.declaredBefore s).length := by
  have hfilter : r.declaredBefore inner
      = (r.declaredBefore s).filter (·.start < inner.start) := by
    unfold declaredBefore
    rw [List.filter_filter]
    refine List.filter_congr ?_
    intro e _
    rw [Bool.eq_iff_iff]
    simp only [Bool.and_eq_true, decide_eq_true_eq]
    omega
  rw [hfilter]
  refine List.length_filter_lt_length_iff_exists.2 ⟨inner, ?_, by simp⟩
  simp [declaredBefore, hinner, hlt]

/-- The columns of a subquery when its expansion may take `depth` steps and came
through the names in `visited`. -/
def columnsWithin (r : Resolver) (depth : Nat) (visited : List String)
    (s : Subquery) : ColumnList :=
  (declaredColumns s).append (r.expandWithin depth visited s)

theorem expandWithin_succ (r : Resolver) (depth : Nat) (visited : List String)
    (s : Subquery) :
    r.expandWithin (depth + 1) visited s
      = if s.wildcards.isEmpty then {}
        else if visited.contains s.name then .unknown
        else .concat ((r.expandedPaths s).map
          (r.pathColumns (r.columnsWithin depth (s.name :: visited)) s)) :=
  rfl

theorem length_declaredBefore_le (r : Resolver) (s : Subquery) :
    (r.declaredBefore s).length ≤ r.subqueries.length :=
  List.length_filter_le ..

/-- More depth changes nothing. Each step goes to an earlier definition, so an
expansion takes no more steps than there are definitions before the one it
starts from. -/
theorem expandWithin_eq_of_le {depth more : Nat} {visited : List String}
    (hdepth : (r.declaredBefore s).length < depth) (hmore : depth ≤ more) :
    r.expandWithin more visited s = r.expandWithin depth visited s := by
  induction depth generalizing s more visited with
  | zero => omega
  | succ depth ih =>
    obtain ⟨more, rfl⟩ : ∃ fewer, more = fewer + 1 := ⟨more - 1, by omega⟩
    have hpath : r.pathColumns (r.columnsWithin more (s.name :: visited)) s
        = r.pathColumns (r.columnsWithin depth (s.name :: visited)) s := by
      funext target
      refine pathColumns_congr ?_
      intro inner hsource
      obtain ⟨hmem, hlt⟩ := start_lt_of_source? hsource
      have hfewer := length_declaredBefore_lt hmem hlt
      rw [columnsWithin, columnsWithin, ih (by omega) (by omega)]
    rw [expandWithin_succ, expandWithin_succ, hpath]

/-- The depth that an expansion is run with is enough for every subquery. -/
theorem expandWithin_eq_expand {depth : Nat} (s : Subquery)
    (hdepth : r.subqueries.length < depth) :
    r.expandWithin depth [] s = r.expand s := by
  have hle := length_declaredBefore_le r s
  exact expandWithin_eq_of_le (by omega) (by omega)

/-- The expansion of a subquery that is the first of its name gives the
columns of its wildcards, if it came through none of the names up to it and
may go deep enough. -/
theorem columnsWithin_eq_plainColumns
    (htext : r.document = Document.ofText text) {depth : Nat}
    {visited : List String} (hfirst : r.IsFirst s)
    (hvisited : ∀ e ∈ r.subqueries, e.start ≤ s.start → e.name ∉ visited)
    (hs : s ∈ r.subqueries) (hdepth : (r.declaredBefore s).length < depth) :
    r.columnsWithin depth visited s = r.plainColumns s := by
  induction depth generalizing s visited with
  | zero => omega
  | succ depth ih =>
    rw [plainColumns_eq, columnsWithin, expandWithin_succ]
    by_cases hempty : s.wildcards.isEmpty
    · rw [if_pos hempty, expandedPaths, List.isEmpty_iff.1 hempty]
      rfl
    · have hnew : ¬ visited.contains s.name = true := by
        simpa using hvisited s hs (Nat.le_refl _)
      rw [if_neg hempty, if_neg hnew]
      -- Each path leads to a first one of its name that stands earlier, so the
      -- guard lets it through again.
      have hpath : r.pathColumns (r.columnsWithin depth (s.name :: visited)) s
          = r.pathColumns r.plainColumns s := by
        funext target
        refine pathColumns_congr ?_
        intro inner hsource
        obtain ⟨hmem, hlt⟩ := start_lt_of_source? hsource
        refine ih (isFirst_of_source?_declaredBefore htext hsource) ?_ hmem ?_
        · intro e he hle hin
          rcases List.mem_cons.1 hin with hname | hin
          · have := hfirst e he hname
            omega
          · exact hvisited e he (by omega) hin
        · have := length_declaredBefore_lt hmem hlt
          omega
      rw [hpath]

theorem sourceColumns_eq_plainColumns
    (htext : r.document = Document.ofText text) (hs : s ∈ r.subqueries)
    (hfirst : r.IsFirst s) :
    r.sourceColumns (.subquery s) = r.plainColumns s := by
  refine columnsWithin_eq_plainColumns htext hfirst ?_ hs ?_
  · intro e _ _ hin
    cases hin
  · have hle := length_declaredBefore_le r s
    omega

/-! ## Completeness -/

/-- The subqueries that an expansion comes to. -/
inductive Reaches (r : Resolver) : Subquery → Subquery → Prop where
  | refl (s : Subquery) : Reaches r s s
  | path {s inner reached : Subquery} {target : String}
      (hpath : target ∈ r.expandedPaths s)
      (hsource : r.source? target (r.declaredBefore s) = some (.subquery inner))
      (hreach : Reaches r inner reached) : Reaches r s reached

/-- Whether every path of the wildcards of a subquery stands for something. -/
def PathsResolve (r : Resolver) (s : Subquery) : Prop :=
  ∀ target ∈ r.expandedPaths s, (r.source? target (r.declaredBefore s)).isSome

theorem complete_concat (lists : List ColumnList) :
    (ColumnList.concat lists).complete = true ↔
      ∀ list ∈ lists, list.complete = true := by
  induction lists with
  | nil => simp [ColumnList.concat]
  | cons list lists ih =>
    have hcons : ColumnList.concat (list :: lists)
        = list.append (.concat lists) := rfl
    rw [hcons, List.forall_mem_cons, ← ih]
    simp [ColumnList.append]

theorem complete_pathColumns (columnsOf : Subquery → ColumnList) (s : Subquery)
    (target : String) :
    (r.pathColumns columnsOf s target).complete = true ↔
      (r.source? target (r.declaredBefore s)).isSome ∧
        ∀ inner,
          r.source? target (r.declaredBefore s) = some (.subquery inner) →
            (columnsOf inner).complete = true := by
  unfold pathColumns
  split <;> rename_i hsource
    <;> simp [hsource, tableColumns, ColumnList.unknown]

/-- The columns are all there are iff every path met on the way stands
for something. -/
theorem complete_plainColumns (r : Resolver) (s : Subquery) :
    (r.plainColumns s).complete = true ↔
      ∀ reached, r.Reaches s reached → r.PathsResolve reached := by
  -- By induction on where the definition starts: each path goes to an
  -- earlier one.
  induction hstart : s.start using Nat.strongRecOn generalizing s with
  | ind start ih =>
    have hinner : ∀ target inner,
        r.source? target (r.declaredBefore s) = some (.subquery inner) →
          ((r.plainColumns inner).complete = true ↔
            ∀ reached, r.Reaches inner reached → r.PathsResolve reached) := by
      intro target inner hsource
      exact ih inner.start (hstart ▸ (start_lt_of_source? hsource).2) inner rfl
    have hcomplete : (r.plainColumns s).complete = true ↔
        ∀ target ∈ r.expandedPaths s,
          (r.pathColumns r.plainColumns s target).complete = true := by
      rw [plainColumns_eq]
      simp only [ColumnList.append, declaredColumns, Bool.true_and,
        complete_concat, List.forall_mem_map]
    rw [hcomplete]
    constructor
    · intro h reached hreach
      cases hreach with
      | refl =>
        exact fun target htarget =>
          ((complete_pathColumns _ s target).1 (h target htarget)).1
      | path htarget hsource hreach =>
        have hpath := ((complete_pathColumns _ s _).1 (h _ htarget)).2 _ hsource
        exact (hinner _ _ hsource).1 hpath reached hreach
    · intro h target htarget
      refine (complete_pathColumns _ s target).2
        ⟨h s (.refl s) target htarget, ?_⟩
      intro inner hsource
      refine (hinner target inner hsource).2 ?_
      intro reached hreach
      exact h reached (.path htarget hsource hreach)

end Resolver

open Resolver

/-- If a name stands for a subquery, at an offset or among the subqueries
defined before another one, the columns of the subquery are those of the
plain recursion, which keeps no list of names it came through; they stay so
however much deeper the expansion may go; and they are all there are iff
every path of a wildcard that the recursion comes to, at any depth, stands
for a table or a subquery. -/
theorem source_columns_are_plain_recursion (text : Text)
    (catalog : Option Catalog) (name : String) (visible : List Subquery)
    (s : Subquery)
    (hvisible :
      let r : Resolver := { document := Document.ofText text, catalog }
      (∃ offset, visible = r.visible (r.scopeAt offset) offset) ∨
        ∃ current ∈ r.subqueries, visible = r.declaredBefore current)
    (hsource : Resolver.source? { document := Document.ofText text, catalog }
        name visible
      = some (.subquery s)) :
    let r : Resolver := { document := Document.ofText text, catalog }
    r.sourceColumns (.subquery s) = r.plainColumns s ∧
      (∀ depth, r.subqueries.length < depth →
        r.columnsWithin depth [] s = r.plainColumns s) ∧
      ((r.sourceColumns (.subquery s)).complete = true ↔
        ∀ reached, r.Reaches s reached →
          ∀ target ∈ r.expandedPaths reached, ∃ source,
            r.source? target (r.declaredBefore reached) = some source) := by
  intro r
  have htext : r.document = Document.ofText text := rfl
  have hmem := mem_of_findSubquery (findSubquery_of_source? hsource)
  have hplain : r.sourceColumns (.subquery s) = r.plainColumns s := by
    rcases hvisible with ⟨offset, rfl⟩ | ⟨current, -, rfl⟩
    · exact sourceColumns_eq_plainColumns htext
        ((visible_sublist r _ _).subset hmem)
        (isFirst_of_source?_visible htext hsource)
    · exact sourceColumns_eq_plainColumns htext
        (List.filter_sublist.subset hmem)
        (isFirst_of_source?_declaredBefore htext hsource)
  refine ⟨hplain, ?_, ?_⟩
  · intro depth hdepth
    rw [columnsWithin, expandWithin_eq_expand s hdepth]
    exact hplain
  rw [hplain, complete_plainColumns]
  simp only [PathsResolve, Option.isSome_iff_exists]

/-- Two subqueries of one name, each of which reads from that name, and a third
that reads from its own. -/
def loopingQuery : Text :=
  ("WITH a AS (SELECT id, x.* FROM a x), a AS (SELECT * FROM a), "
    ++ "b AS (SELECT * FROM a, b, t) SELECT * FROM b").toList

/-- A resolver of the looping query with a table for each name in it. -/
def loopingResolver : Resolver :=
  { document := Document.ofText loopingQuery
    catalog :=
      some (.ofTables [{ name := "A", columns := [{ name := "k" }] },
        { name := "B", columns := [{ name := "n" }] },
        { name := "T", columns := [{ name := "id" }] }]) }

theorem source_columns_are_plain_recursion_loopingQuery :
    ∃ s ∈ loopingResolver.subqueries,
      loopingResolver.source? "b"
            (loopingResolver.visible (loopingResolver.scopeAt 100) 100)
          = some (.subquery s) ∧
        loopingResolver.sourceColumns (.subquery s)
          = loopingResolver.plainColumns s ∧
        (loopingResolver.plainColumns s).columns.map
            (fun c => (c.owner.describe, c.name))
          = [("subquery A", "id"), ("table A", "k"), ("table B", "n"),
            ("table T", "id")] ∧
        ∀ reached, loopingResolver.Reaches s reached →
          ∀ target ∈ loopingResolver.expandedPaths reached, ∃ source,
            loopingResolver.source? target
                (loopingResolver.declaredBefore reached)
              = some source := by
  have hfound : ∃ s ∈ loopingResolver.subqueries,
      loopingResolver.source? "b"
            (loopingResolver.visible (loopingResolver.scopeAt 100) 100)
          = some (.subquery s) ∧
        (loopingResolver.sourceColumns (.subquery s)).columns.map
            (fun c => (c.owner.describe, c.name))
          = [("subquery A", "id"), ("table A", "k"), ("table B", "n"),
            ("table T", "id")] ∧
        (loopingResolver.sourceColumns (.subquery s)).complete = true := by
    decide +kernel
  obtain ⟨s, hs, hsource, hcolumns, hcomplete⟩ := hfound
  obtain ⟨hplain, -, hall⟩ :=
    source_columns_are_plain_recursion loopingQuery loopingResolver.catalog "b"
      (loopingResolver.visible (loopingResolver.scopeAt 100) 100) s
      (Or.inl ⟨100, rfl⟩) hsource
  exact ⟨s, hs, hsource, hplain, hplain ▸ hcolumns, hall.1 hcomplete⟩

end QueryAssist
