import QueryAssist.Proofs.Scope.Span

/-!
# Disjoint definitions

The definitions of a text follow one another, and each has its body between two
parentheses of the text. So an offset lies in at most one body, no definition
reaches into the body of another, and the scope of an offset does not depend on
the order in which the definitions are searched.
-/

namespace QueryAssist

open Text

/-! ## Searches -/

/-- What at most one element meets is found in any order. -/
theorem find?_eq_of_perm {α : Type} {p : α → Bool} {xs ys : List α}
    (hperm : xs.Perm ys)
    (hone : ys.countP p ≤ 1) : xs.find? p = ys.find? p := by
  have hfilter := hperm.filter p
  rw [List.countP_eq_length_filter] at hone
  rw [← List.head?_filter, ← List.head?_filter]
  rcases hys : ys.filter p with _ | ⟨y, _ | ⟨z, zs⟩⟩
  · rw [hys, List.perm_nil] at hfilter
    rw [hfilter]
  · rw [hys, List.perm_singleton] at hfilter
    rw [hfilter]
  · rw [hys] at hone
    simp at hone

theorem max?_eq_of_perm {xs ys : List Nat}
    (h : xs.Perm ys) : xs.max? = ys.max? := by
  ext m
  simp only [List.max?_eq_some_iff, h.mem_iff]

theorem countP_le_one_of_pairwise {α : Type} {p : α → Bool} {xs : List α}
    (h : xs.Pairwise fun a b => p a = true → p b = false) :
    xs.countP p ≤ 1 := by
  induction h with
  | nil => simp
  | @cons x xs hx hxs ih =>
    by_cases hp : p x = true
    · have hnone : xs.countP p = 0 :=
        List.countP_eq_zero.2 fun y hy => by simp [hx y hy hp]
      rw [List.countP_cons, hnone]
      simp [hp]
    · rw [List.countP_cons, if_neg hp]
      exact ih

/-! ## The place of a definition -/

namespace Subquery

/-- Whether an offset lies in the definition, from its name to its closing
parenthesis. -/
def covers (s : Subquery) (offset : Nat) : Bool :=
  s.start ≤ offset && offset < s.stop

/-- A definition lies in its text: first the name, then the body between an
opening and a closing parenthesis. -/
structure StandsIn (s : Subquery) (text : Text) : Prop where
  start_lt : s.start < s.bodyStart
  bodyStart_le : s.bodyStart ≤ s.bodyStop
  stop_eq : s.stop = s.bodyStop + 1
  stop_le : s.stop ≤ text.width
  opening : HasAt text (s.bodyStart - 1) '('
  closing : HasAt text s.bodyStop ')'

/-- A body lies in its definition. -/
theorem StandsIn.covers_of_containsBody {s : Subquery} {text : Text}
    (h : s.StandsIn text) {offset : Nat}
    (hbody : s.containsBody offset = true) : s.covers offset = true := by
  have hstart := h.start_lt
  have hstop := h.stop_eq
  simp only [containsBody, Bool.and_eq_true, decide_eq_true_eq] at hbody
  simp only [covers, Bool.and_eq_true, decide_eq_true_eq]
  omega

end Subquery

theorem standsIn_of_mem {text : Text} {s : Subquery}
    (h : s ∈ parseSubqueries text) : s.StandsIn text := by
  obtain ⟨hopen, hclose, hstart, hbody, hstop⟩ := body_parens h
  have hend : s.bodyStop + 1 ≤ text.width := hclose.isRange.stop_le
  exact ⟨by omega, hbody, hstop, by omega, hopen, hclose⟩

/-- Of two definitions neither reaches into the body of the other. -/
theorem parseSubqueries_apart (text : Text) :
    (parseSubqueries text).Pairwise fun a b => ∀ offset,
      (a.covers offset = true → b.containsBody offset = false) ∧
        (b.covers offset = true → a.containsBody offset = false) := by
  refine (List.Pairwise.and_mem.1 (parseSubqueries_ordered text)).imp ?_
  rintro a b ⟨ha, hb, hle⟩ offset
  have hbefore := (standsIn_of_mem ha).stop_eq
  have hafter := (standsIn_of_mem hb).start_lt
  simp only [Subquery.covers, Subquery.containsBody, Bool.and_eq_true,
    Bool.and_eq_false_iff, decide_eq_true_eq, decide_eq_false_iff_not]
  omega

/-- An offset lies in at most one body. -/
theorem countP_containsBody_le_one (text : Text) (offset : Nat) :
    (parseSubqueries text).countP (·.containsBody offset) ≤ 1 := by
  refine countP_le_one_of_pairwise
    ((List.Pairwise.and_mem.1 (parseSubqueries_apart text)).imp ?_)
  rintro a b ⟨ha, -, happart⟩ hbody
  exact (happart offset).1 ((standsIn_of_mem ha).covers_of_containsBody hbody)

namespace Resolver

/-- The scope of an offset is the same whichever order the definitions are
searched in. -/
theorem scopeAt_of_perm {text : Text} {searched : List Subquery}
    (hperm : searched.Perm (parseSubqueries text)) (catalog : Option Catalog)
    (offset : Nat) :
    scopeAt { document := { Document.ofText text with subqueries := searched },
              catalog } offset
      = scopeAt { document := Document.ofText text, catalog } offset := by
  have hfind : searched.find? (·.containsBody offset)
      = (parseSubqueries text).find? (·.containsBody offset) :=
    find?_eq_of_perm hperm (countP_containsBody_le_one text offset)
  have hlast : (searched.map Subquery.stop).max?
      = ((parseSubqueries text).map Subquery.stop).max? :=
    max?_eq_of_perm (hperm.map _)
  unfold parseSubqueries at hfind hlast
  simp only [scopeAt, lastStop, subqueries, hfind, hlast]

end Resolver

/-- The definitions of a text are in order and disjoint. Each has its body
between two parentheses of the text, and the next one starts where it has
stopped or later. So no offset lies in two bodies, no part of a definition lies
in the body of another, and the scope of an offset does not depend on the order
in which the definitions are searched. -/
theorem definitions_stand_apart (text : Text) :
    (∀ s ∈ parseSubqueries text, s.StandsIn text) ∧
      (parseSubqueries text).Pairwise (fun a b => a.stop ≤ b.start) ∧
      (∀ offset, (parseSubqueries text).countP (·.containsBody offset) ≤ 1) ∧
      (parseSubqueries text).Pairwise
        (fun a b =>
          ∀ offset, (a.covers offset = true → b.containsBody offset = false) ∧
            (b.covers offset = true → a.containsBody offset = false)) ∧
      ∀ searched, searched.Perm (parseSubqueries text) →
        ∀ catalog offset,
          Resolver.scopeAt { document := { Document.ofText text with
                               subqueries := searched }, catalog } offset
            = Resolver.scopeAt { document := Document.ofText text, catalog }
              offset :=
  ⟨fun _ => standsIn_of_mem, parseSubqueries_ordered text,
    countP_containsBody_le_one text, parseSubqueries_apart text,
    fun _ hperm => Resolver.scopeAt_of_perm hperm⟩

/-- A text with a stray parenthesis, one in a literal, a comma inside a body and
a definition that is cut off. -/
def strayQuery : Text :=
  (") WITH a AS (SELECT ')', (b) AS x FROM t), "
    ++ "b AS (SELECT 1, c AS (2) FROM a) SELECT 1), d AS (SELECT").toList

theorem definitions_stand_apart_strayQuery :
    (parseSubqueries strayQuery).map
          (fun s => (s.start, s.bodyStart, s.bodyStop))
        = [(7, 13, 40), (43, 49, 74)] ∧
      (∀ s ∈ parseSubqueries strayQuery, HasAt strayQuery s.bodyStop ')') ∧
      Resolver.scopeAt
          { document := { Document.ofText strayQuery with
              subqueries := (parseSubqueries strayQuery).reverse }
            catalog := none } 30
        = Resolver.scopeAt
          { document := Document.ofText strayQuery, catalog := none } 30 := by
  obtain ⟨hplaces, -, -, -, hscope⟩ := definitions_stand_apart strayQuery
  refine ⟨by decide +kernel, ?_, hscope _ (List.reverse_perm _) none 30⟩
  intro s hs
  exact (hplaces s hs).closing

end QueryAssist
