import QueryAssist.Proofs.Query.SelectItem
import QueryAssist.Proofs.Scope.Respelling

/-!
# Lookups do not see the wording of expressions

The text of a document is looked at for one thing besides spans: the wording of
the expressions that select lists rename. Here that wording is taken out of
every value that holds a subquery. Leaving it out is a respelling that changes
no name, so scopes and lookups are the same with and without it.
-/

namespace QueryAssist

open Text

/-! ## Select lists -/

/-- The column without the wording of its expression; that it has one
still shows. -/
def OutputColumn.unworded (column : OutputColumn) : OutputColumn :=
  { column with expression := column.expression.map fun _ => "" }

/-- The text gives a renamed column its wording and nothing else. -/
theorem aliased_unworded (text other : Text) (name : Token)
    (expr : List Token) :
    (aliased other name expr).unworded = (aliased text name expr).unworded := by
  unfold aliased
  rcases expr.reverse with _ | ⟨t, _ | ⟨dot, path⟩⟩
  · rfl
  · simp only
    split <;> rfl
  · simp only
    split
    · rcases dottedPath path.reverse with _ | qualifier <;> rfl
    · rfl

theorem columnOf_unworded (text other : Text) (item : List Token) :
    (columnOf other item).map OutputColumn.unworded
      = (columnOf text item).map OutputColumn.unworded := by
  rcases hrenamed : renamed? item with _ | ⟨name, expr⟩
  · rw [columnOf_of_not_renamed hrenamed other text]
  · rw [columnOf_of_renamed hrenamed, columnOf_of_renamed hrenamed,
      Option.map_some, Option.map_some, aliased_unworded]

/-- The projection without the wording of its expressions. -/
def Projection.unworded (projection : Projection) : Projection :=
  { projection with columns := projection.columns.map OutputColumn.unworded }

theorem projectionOf_unworded (text other : Text) (tokens : List Token) :
    (projectionOf other tokens).unworded
      = (projectionOf text tokens).unworded := by
  rw [projectionOf_eq, projectionOf_eq]
  induction selectItems tokens with
  | nil => rfl
  | cons item items ih =>
    have hcolumn := columnOf_unworded text other item
    obtain ⟨hcolumns, hwildcards⟩ := Projection.mk.inj ih
    rw [List.foldr_cons, List.foldr_cons, Projection.addItem,
      Projection.addItem]
    rcases wildcardOf item with _ | wildcard
    · rcases hother : columnOf other item with _ | column
        <;> rcases htext : columnOf text item with _ | column'
      · exact ih
      · simp [hother, htext] at hcolumn
      · simp [hother, htext] at hcolumn
      · have heq : column.unworded = column'.unworded := by
          simpa [hother, htext] using hcolumn
        simp only [Projection.unworded, List.map_cons, heq, hcolumns,
          hwildcards]
    · simp only [Projection.unworded, hcolumns, hwildcards]

/-- The names that select lists give to expressions do not depend
on the text. -/
theorem selectAliases_congr (text other : Text) (tokens : List Token) :
    selectAliases other tokens = selectAliases text tokens := by
  have hnames : ∀ columns : List OutputColumn,
      (columns.filter (·.expression.isSome)).map (Text.upper ·.name)
        = ((columns.map OutputColumn.unworded).filter (·.expression.isSome)).map
          (Text.upper ·.name) := by
    intro columns
    have hsome : ((·.expression.isSome) ∘ OutputColumn.unworded :
          OutputColumn → Bool)
        = (·.expression.isSome) := by
      funext column
      exact Option.isSome_map
    rw [List.filter_map, List.map_map, hsome]
    rfl
  rw [selectAliases_eq, selectAliases_eq]
  refine congrArg (List.flatMap · _) (funext fun run => ?_)
  have hcolumns :=
    congrArg Projection.columns (projectionOf_unworded text other run)
  rw [hnames, hnames (projectionOf text run).columns]
  exact congrArg _ (congrArg _ hcolumns)

/-- The subquery without the wording of its expressions. -/
def Subquery.unworded (s : Subquery) : Subquery :=
  { s with columns := s.columns.map OutputColumn.unworded }

theorem declareColumns_unworded (declared : Option (List String))
    (inferred : Projection) :
    (declareColumns declared inferred).unworded
      = declareColumns declared inferred.unworded := by
  cases declared with
  | none => rfl
  | some names =>
    simp only [declareColumns, Projection.unworded, List.length_map]
    split
    · rw [List.map_zipWith, List.zipWith_map_right]
      rfl
    · rw [List.map_map]
      rfl

theorem Layout.subquery_unworded (text other : Text) (layout : Layout) :
    (layout.subquery other).unworded = (layout.subquery text).unworded := by
  have hprojection : (declareColumns layout.declared
        (projectionOf other layout.body)).unworded
      = (declareColumns layout.declared
        (projectionOf text layout.body)).unworded := by
    rw [declareColumns_unworded, projectionOf_unworded text,
      declareColumns_unworded]
  obtain ⟨hcolumns, hwildcards⟩ := Projection.mk.inj hprojection
  simp only [Layout.subquery, Subquery.unworded, hcolumns, hwildcards]

/-- Two texts with the same masked form define the same subqueries, but for the
wording of expressions. -/
theorem parseSubqueries_unworded {text other : Text}
    (h : other.sanitize = text.sanitize) :
    (parseSubqueries other).map Subquery.unworded
      = (parseSubqueries text).map Subquery.unworded := by
  rw [parseSubqueries_eq, parseSubqueries_eq, subqueriesOf_eq, subqueriesOf_eq,
    h, List.map_map, List.map_map]
  exact List.map_congr_left fun layout _ => layout.subquery_unworded text other

/-! ## Scopes and bindings -/

def Scope.unworded : Scope → Scope
  | .subquery s => .subquery s.unworded
  | .main => .main
  | .unstructured => .unstructured

def Source.unworded : Source → Source
  | .subquery s => .subquery s.unworded
  | .table t => .table t

theorem Source.describe_unworded (source : Source) :
    source.unworded.describe = source.describe := by
  cases source <;> rfl

/-- The bindings with subqueries that have no wording. -/
def Bindings.unworded (bindings : Bindings) : Bindings :=
  { bindings with
    scope := bindings.scope.unworded,
    visible := bindings.visible.map Subquery.unworded }

/-- Leaving out the wording of expressions respells nothing else. -/
def Respelling.unwording : Respelling :=
  { Recasting.refl with
    column := OutputColumn.unworded
    place_eq := fun _ => rfl
    name_column := fun _ => rfl }

open Respelling (unwording)

theorem unwording_scope (scope : Scope) :
    unwording.scope scope = scope.unworded := by
  cases scope <;> rfl

theorem unwording_source : unwording.source = Source.unworded := by
  funext source
  cases source <;> rfl

theorem unwording_table : unwording.table = id := by
  funext table
  have halias : table.aliasName.map id = table.aliasName := Option.map_id_apply
  simp only [Recasting.table, unwording, Recasting.refl, halias]
  rfl

theorem unwording_bindings (bindings : Bindings) :
    unwording.bindings bindings = bindings.unworded := by
  have haliases : unwording.aliases bindings.aliases = bindings.aliases :=
    List.map_id _
  rw [Respelling.bindings, unwording_table, List.map_id, haliases,
    unwording_scope]
  rfl

namespace Resolver

/-- The resolver of a document without a text, whose subqueries have
no wording. -/
def unworded (r : Resolver) : Resolver :=
  { r with
    document := { r.document with
      text := [], subqueries := r.document.subqueries.map Subquery.unworded } }

variable (r : Resolver)

theorem links_unworded : unwording.Links r r.unworded where
  catalog := rfl
  tokens := (List.map_id _).symm
  subqueries := rfl
  bounds _ := rfl

theorem bindingsAt_unworded (offset : Nat) :
    r.unworded.bindingsAt offset = (r.bindingsAt offset).unworded := by
  rw [r.links_unworded.bindingsAt, unwording_bindings]

theorem source?_unworded (name : String) (visible : List Subquery) :
    r.unworded.source? name (visible.map Subquery.unworded)
      = (r.source? name visible).map Source.unworded := by
  rw [← unwording_source]
  exact r.links_unworded.source? rfl visible

end Resolver

/-! ## Columns -/

def ColumnRef.unworded : ColumnRef → ColumnRef
  | .subquery s column => .subquery s.unworded column.unworded
  | .table t column => .table t column

theorem ColumnRef.name_unworded (column : ColumnRef) :
    column.unworded.name = column.name := by
  cases column <;> rfl

/-- The columns without wording. -/
def ColumnList.unworded (list : ColumnList) : ColumnList :=
  { list with columns := list.columns.map ColumnRef.unworded }

theorem unwording_columnList (list : ColumnList) :
    unwording.columnList list = list.unworded := by
  have hcolumn : unwording.columnRef = ColumnRef.unworded := by
    funext column
    cases column <;> rfl
  rw [Respelling.columnList, hcolumn, ColumnList.unworded]

theorem Resolver.sourceColumns_unworded (r : Resolver) (source : Source) :
    r.unworded.sourceColumns source.unworded
      = (r.sourceColumns source).unworded := by
  rw [← unwording_source, r.links_unworded.sourceColumns, unwording_columnList]

/-! ## Lookups -/

def Lookup.unworded : Lookup → Lookup
  | .found source column => .found source.unworded column.unworded
  | .missing sources available =>
    .missing (sources.map Source.unworded) available
  | .indeterminate => .indeterminate

namespace Resolver

variable (r : Resolver)

/-- The column of this name that a source declares itself. -/
def ownColumn? (source : Source) (column : String) : Option ColumnRef :=
  match source with
  | .subquery s => (s.column? column).map (.subquery s)
  | .table _ => none

theorem lookupIn_eq (source : Source) (column : String) :
    r.lookupIn source column
      = match ownColumn? source column with
        | some c => .found source c
        | none =>
          match (r.sourceColumns source).columns.find?
              fun c => Text.sameAscii c.name column with
          | some c => .found source c
          | none =>
            if (r.sourceColumns source).complete then
              .missing [source]
                (dedupNames []
                  ((r.sourceColumns source).columns.map ColumnRef.name))
            else .indeterminate := rfl

theorem ownColumn?_unworded (source : Source) (column : String) :
    ownColumn? source.unworded column
      = (ownColumn? source column).map ColumnRef.unworded := by
  cases source with
  | table table => rfl
  | subquery s =>
    have hcolumn : s.unworded.column? column
        = (s.column? column).map OutputColumn.unworded := by
      rw [Subquery.column?, Subquery.unworded, List.find?_map]
      rfl
    rw [Source.unworded, ownColumn?, hcolumn, ownColumn?, Option.map_map,
      Option.map_map]
    rfl

theorem lookupIn_unworded (source : Source) (column : String) :
    r.unworded.lookupIn source.unworded column
      = (r.lookupIn source column).unworded := by
  have hlist : (r.unworded.sourceColumns source.unworded).columns.find?
        (fun c => Text.sameAscii c.name column)
      = ((r.sourceColumns source).columns.find? fun c =>
        Text.sameAscii c.name column).map ColumnRef.unworded := by
    have hsame : (fun c : ColumnRef => Text.sameAscii c.name column)
          ∘ ColumnRef.unworded
        = fun c => Text.sameAscii c.name column := by
      funext c
      rw [Function.comp_apply, ColumnRef.name_unworded]
    rw [sourceColumns_unworded, ColumnList.unworded, List.find?_map, hsame]
  have hnames : (r.unworded.sourceColumns source.unworded).columns.map
        ColumnRef.name
      = (r.sourceColumns source).columns.map ColumnRef.name := by
    rw [sourceColumns_unworded, ColumnList.unworded, List.map_map]
    exact List.map_congr_left fun c _ => c.name_unworded
  have hcomplete : (r.unworded.sourceColumns source.unworded).complete
      = (r.sourceColumns source).complete := by
    rw [sourceColumns_unworded]
    rfl
  rw [lookupIn_eq, lookupIn_eq, ownColumn?_unworded, hlist, hnames, hcomplete]
  cases ownColumn? source column with
  | some c => rfl
  | none =>
    generalize (r.sourceColumns source).columns.find? _ = found
    cases found with
    | some c => rfl
    | none =>
      simp only [Option.map_none]
      split <;> rfl

theorem lookupQualified_unworded (bindings : Bindings)
    (qualifier column : String) :
    r.unworded.lookupQualified bindings.unworded qualifier column
      = (r.lookupQualified bindings qualifier column).unworded := by
  have htarget : bindings.unworded.target qualifier
      = bindings.target qualifier := rfl
  have hvisible : bindings.unworded.visible
      = bindings.visible.map Subquery.unworded := rfl
  rw [lookupQualified, htarget, hvisible, source?_unworded, lookupQualified]
  rcases r.source? (bindings.target qualifier) bindings.visible with _ | source
  · rfl
  · exact r.lookupIn_unworded source column

theorem lookupAmong_unworded (visible : List Subquery) (column : String)
    (sources : List Source) (available : List String) (tables : List TableRef) :
    r.unworded.lookupAmong (visible.map Subquery.unworded) column
        (sources.map Source.unworded) available tables
      = (r.lookupAmong visible column sources available tables).unworded := by
  induction tables generalizing sources available with
  | nil => rfl
  | cons table tables ih =>
    rw [lookupAmong, lookupAmong, source?_unworded]
    rcases r.source? table.name visible with _ | source
    · rfl
    · simp only [Option.map_some, lookupIn_unworded]
      rcases r.lookupIn source column with ⟨found, ref⟩ | ⟨missing, names⟩ | _
      · rfl
      · have hsources : (sources ++ [source]).map Source.unworded
            = sources.map Source.unworded ++ [source.unworded] := by
          rw [List.map_append, List.map_singleton]
        exact hsources ▸ ih (sources ++ [source]) (available ++ names)
      · rfl

theorem lookupUnqualified_unworded (bindings : Bindings) (column : String) :
    r.unworded.lookupUnqualified bindings.unworded column
      = (r.lookupUnqualified bindings column).unworded := by
  have htables : bindings.unworded.tables = bindings.tables := rfl
  rw [lookupUnqualified, lookupUnqualified, htables]
  split
  · rfl
  · exact r.lookupAmong_unworded bindings.visible column [] [] bindings.tables

end Resolver

end QueryAssist
