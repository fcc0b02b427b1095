import QueryAssist.Proofs.Text.UpperCase
import QueryAssist.Scope.Basic

/-!
# What an alias is bound to

A scope keeps the aliases, the short names and the paths of its tables under one
list of keys, and the first table that uses a key keeps it. So an alias that
only one table declares stands for that table unless the name was taken before:
by an earlier table that has it as its short name or path, whether or not that
table is called by an alias of its own.
-/

namespace QueryAssist

/-! ## Keys -/

/-- A key that is there keeps its value. -/
theorem Entries.get?_putNew {α : Type} (entries : Entries α) (key : String)
    (value : α) (other : String) :
    (entries.putNew key value).get? other
      = (entries.get? other).or (if key = other then some value else none) := by
  have happend : ∀ entries : Entries α,
      Entries.get? (entries ++ [(key, value)]) other
        = (entries.get? other).or
          (if key = other then some value else none) := by
    intro entries
    induction entries with
    | nil => simp [get?_cons]
    | cons e rest ih =>
      obtain ⟨k, v⟩ := e
      rw [List.cons_append, get?_cons, get?_cons, ih]
      split <;> rfl
  rw [putNew]
  split
  · rename_i hhas
    by_cases hkey : key = other
    · rw [hkey, has] at hhas
      rw [Option.or_of_isSome hhas]
    · rw [if_neg hkey, Option.or_none]
  · exact happend entries

namespace TableRef

/-- Whether the table declares an alias with this key. -/
def declares (table : TableRef) (key : String) : Bool :=
  table.aliasName.any (Text.upper · == key)

/-- Whether the table has this key as its short name or as its path. -/
def isCalled (table : TableRef) (key : String) : Bool :=
  Text.upper table.shortName == key || table.upper == key

/-- Keys are in upper case. -/
theorem upper_of_declares {table : TableRef} {key : String}
    (h : table.declares key = true) : Text.upper key = key := by
  cases halias : table.aliasName with
  | none => simp [declares, halias] at h
  | some aliasName =>
    simp only [declares, halias, Option.any_some, beq_iff_eq] at h
    rw [← h, Text.upper_upper]

end TableRef

theorem ite_or_ite {α : Type} (p q : Prop) [Decidable p] [Decidable q]
    (value : α) :
    (if p then some value else none).or (if q then some value else none)
      = if p ∨ q then some value else none := by
  by_cases hp : p
  · simp [hp]
  · simp [hp]

/-- A table takes the keys that are still free among its alias, its short name
and its path. -/
theorem get?_bindTable (aliases : Entries String) (table : TableRef)
    (key : String) :
    (bindTable aliases table).get? key
      = (aliases.get? key).or
        (if table.declares key || table.isCalled key then some table.name
          else none) := by
  rw [bindTable, Entries.get?_putNew, Entries.get?_putNew, Option.or_assoc,
    ite_or_ite]
  cases halias : table.aliasName with
  | none => simp [TableRef.declares, TableRef.isCalled, halias]
  | some aliasName =>
    simp only [Entries.get?_putNew]
    rw [Option.or_assoc, ite_or_ite]
    simp [TableRef.declares, TableRef.isCalled, halias]

/-- A key stands for the first table that uses it. -/
theorem get?_aliasesOf (tables : List TableRef) (key : String) :
    (aliasesOf tables).get? key
      = (tables.find? fun table => table.declares key || table.isCalled key).map
        TableRef.name := by
  have hfrom : ∀ aliases : Entries String,
      (tables.foldl bindTable aliases).get? key
        = (aliases.get? key).or
          ((tables.find? fun table =>
            table.declares key || table.isCalled key).map TableRef.name) := by
    induction tables with
    | nil => simp
    | cons table tables ih =>
      intro aliases
      rw [List.foldl_cons, ih, get?_bindTable, Option.or_assoc, List.find?_cons]
      cases table.declares key || table.isCalled key <;> simp
  simpa [aliasesOf] using hfrom []

/-- Of the elements that meet one of two conditions the first is the only one
that meets the first condition, unless one before it meets the second. -/
theorem find?_or_of_filter {α : Type} {p q : α → Bool} {xs : List α} {x : α}
    (h : xs.filter p = [x]) :
    xs.find? (fun a => p a || q a)
      = some (((xs.takeWhile (!p ·)).find? q).getD x) := by
  induction xs with
  | nil => cases h
  | cons a xs ih =>
    by_cases hp : p a = true
    · rw [List.filter_cons_of_pos hp] at h
      obtain ⟨rfl, -⟩ := List.cons.inj h
      simp [hp]
    · rw [List.filter_cons_of_neg hp] at h
      rw [Bool.not_eq_true] at hp
      rw [List.find?_cons, List.takeWhile_cons_of_pos (by simp [hp]),
        List.find?_cons, hp, Bool.false_or]
      cases q a with
      | true => rfl
      | false => exact ih h

/-- An alias that one table alone declares stands for that table, or else for
the first earlier table that has the same name. So it stands for the table that
declares it iff no other table has taken the name before. -/
theorem alias_resolves_unless_taken (text : Text) (catalog : Option Catalog)
    (offset : Nat) (key : String) (table : TableRef)
    (hone : (({ document := Document.ofText text, catalog } :
        Resolver).bindingsAt offset).tables.filter (·.declares key)
      = [table]) :
    let bindings :=
      ({ document := Document.ofText text, catalog } : Resolver).bindingsAt
        offset
    let taken :=
      (bindings.tables.takeWhile (!·.declares key)).find? (·.isCalled key)
    bindings.resolve key = some (taken.getD table).name ∧
      (bindings.resolve key = some table.name ↔
        ∀ other, taken = some other → other.name = table.name) := by
  intro bindings taken
  have hdeclares : table.declares key = true := by
    have hmem : table ∈ bindings.tables.filter (·.declares key) := by
      rw [hone]; exact List.mem_singleton_self table
    exact (List.mem_filter.1 hmem).2
  have hresolve : bindings.resolve key = some (taken.getD table).name := by
    rw [Bindings.resolve, TableRef.upper_of_declares hdeclares]
    exact (get?_aliasesOf bindings.tables key).trans
      (by rw [find?_or_of_filter hone]; rfl)
  refine ⟨hresolve, ?_⟩
  rw [hresolve, Option.some.injEq]
  cases taken with
  | none => simp
  | some other => simp

/-- The third table has the alias of the second one as its name. -/
def aliasedQuery : Text :=
  "SELECT e.id FROM hr.depts d, hr.employees e, e x".toList

theorem alias_resolves_unless_taken_aliasedQuery :
    let bindings :=
      ({ document := Document.ofText aliasedQuery, catalog := none } :
        Resolver).bindingsAt 8
    bindings.tables.filter (·.declares "E")
        = [⟨"hr.employees", some "e", 29, 41⟩] ∧
      bindings.resolve "E" = some "hr.employees" := by
  intro bindings
  have hone : bindings.tables.filter (·.declares "E")
      = [⟨"hr.employees", some "e", 29, 41⟩] := by decide +kernel
  have hfree : (bindings.tables.takeWhile (!·.declares "E")).find?
        (·.isCalled "E") = none := by decide +kernel
  obtain ⟨hresolve, -⟩ :=
    alias_resolves_unless_taken aliasedQuery none 8 "E" _ hone
  exact ⟨hone, hresolve.trans (by rw [hfree]; rfl)⟩

/-- The first table goes by an alias of its own, and the second one is aliased
to its name. -/
def renamedQuery : Text := "SELECT a.id FROM a x, b a".toList

theorem alias_is_taken_renamedQuery :
    let bindings :=
      ({ document := Document.ofText renamedQuery, catalog := none } :
        Resolver).bindingsAt 7
    bindings.tables.filter (·.declares "A") = [⟨"b", some "a", 22, 23⟩] ∧
      bindings.resolve "A" = some "a" := by
  decide +kernel

end QueryAssist
