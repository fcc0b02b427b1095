import Mathlib.Data.List.Pairwise
import QueryAssist.Proofs.Scope.Disjoint

/-!
# What an offset sees

The span of an offset is a range of the text around it, whichever scope the
offset lies in. The three scopes have three rules for the definitions that can
be named, but the definitions stand apart, so the rules come to one: an offset
sees the definitions whose bodies have begun. What is seen is therefore a first
part of all definitions, and further on it is a longer one.
-/

namespace QueryAssist

open Text

/-! ## Where spans can lie -/

/-- The statement at an offset lies in the text and around the boundary below
the offset. -/
theorem statementBounds_around (clean : Text) (offset : Nat) :
    (clean.statementBounds offset).1 ≤ clean.floor offset ∧
      clean.floor offset ≤ (clean.statementBounds offset).2 ∧
      (clean.statementBounds offset).2 ≤ clean.width := by
  have hrest :=
    congrArg width
      (List.takeWhile_append_dropWhile (p := (· != ';'))
        (l := clean.after offset))
  rw [width_append] at hrest
  have hwhole : clean.floor offset + width (clean.after offset)
      = clean.width := by
    rw [floor, ← width_append, upTo_append_after]
  simp only [statementBounds, (upTo_floor clean offset).2]
  omega

/-- A body starts at a boundary of the masked text, and its definition
stops at one. -/
theorem body_boundaries {text : Text} {s : Subquery}
    (h : s ∈ parseSubqueries text) :
    text.sanitize.isBoundary s.bodyStart = true ∧
      text.sanitize.isBoundary s.stop = true := by
  have hclose := (close_hasAt_sanitize h).isRange.stop_boundary
  rw [← show s.stop
    = s.bodyStop + ')'.utf8Size from (standsIn_of_mem h).stop_eq] at hclose
  rw [parseSubqueries_eq, subqueriesOf_eq] at h
  obtain ⟨layout, hlayout, rfl⟩ := List.mem_map.1 h
  obtain ⟨hopen, hstop, -⟩ := layout_masked_parens hlayout
  refine ⟨?_, hclose⟩
  rw [show (layout.subquery text).bodyStart
    = layout.opening.start + '('.utf8Size from hstop]
  exact hopen.isRange.stop_boundary

/-- Of two definitions one stops where the other starts or earlier. -/
theorem definitions_apart {text : Text} {s s' : Subquery}
    (hs : s ∈ parseSubqueries text) (hs' : s' ∈ parseSubqueries text)
    (hne : s ≠ s') : s.stop ≤ s'.start ∨ s'.stop ≤ s.start := by
  have : Std.Symm fun a b : Subquery => a.stop ≤ b.start ∨ b.stop ≤ a.start :=
    ⟨fun _ _ => Or.symm⟩
  have hord : (parseSubqueries text).Pairwise fun a b =>
      a.stop ≤ b.start ∨ b.stop ≤ a.start :=
    (parseSubqueries_ordered text).imp Or.inl
  exact hord.forall hs hs' hne

namespace Resolver

variable {r : Resolver} {text : Text} {offset : Nat}

/-! ## The scope of an offset -/

theorem scopeAt_eq_subquery {s : Subquery}
    (h : r.scopeAt offset = .subquery s) :
    s ∈ r.subqueries ∧ s.bodyStart ≤ offset ∧ offset ≤ s.bodyStop := by
  rw [scopeAt] at h
  split at h
  · rename_i found hfind
    cases h
    exact ⟨List.mem_of_find?_eq_some hfind,
      by simpa [Subquery.containsBody] using List.find?_some hfind⟩
  · split at h
    · split at h <;> cases h
    · cases h

theorem scopeAt_eq_main (h : r.scopeAt offset = .main) :
    ∃ stop, r.lastStop = some stop ∧ stop < offset := by
  rw [scopeAt] at h
  split at h
  · cases h
  · split at h
    · rename_i stop hlast
      split at h
      · rename_i hlt
        exact ⟨stop, hlast, hlt⟩
      · cases h
    · cases h

theorem scopeAt_eq_unstructured (h : r.scopeAt offset = .unstructured)
    {s : Subquery} (hs : s ∈ r.subqueries) :
    offset < s.bodyStart ∨ s.bodyStop < offset := by
  rw [scopeAt] at h
  split at h
  · cases h
  · rename_i hfind
    have hout := List.find?_eq_none.1 hfind s hs
    simp only [Subquery.containsBody, Bool.and_eq_true,
      decide_eq_true_eq] at hout
    omega

/-- The span of an offset lies in the text and around the boundary below
the offset. -/
theorem spanAt_around (htext : r.document = Document.ofText text)
    (offset : Nat) :
    (r.spanAt offset).1 ≤ text.sanitize.floor offset ∧
      text.sanitize.floor offset ≤ (r.spanAt offset).2 ∧
      (r.spanAt offset).2 ≤ text.width := by
  have hwidth : text.sanitize.width = text.width := width_maskFrom _ _ text
  have hclean : r.document.clean = text.sanitize := by rw [htext]; rfl
  obtain ⟨hstart, hstop, hle⟩ := statementBounds_around text.sanitize offset
  rw [hwidth] at hle
  rw [spanAt]
  cases hscope : r.scopeAt offset with
  | subquery s =>
    obtain ⟨hs, hlow, hhigh⟩ := scopeAt_eq_subquery hscope
    rw [subqueries_eq htext] at hs
    have hbelow := floor_le text.sanitize offset
    have hplace := standsIn_of_mem hs
    have hinside := hplace.stop_le
    have hend := hplace.stop_eq
    refine ⟨(le_floor_iff (body_boundaries hs).1 offset).2 hlow, ?_, ?_⟩
    · simp only [span]
      omega
    · simp only [span]
      omega
  | main =>
    obtain ⟨last, hlast, hlt⟩ := scopeAt_eq_main hscope
    obtain ⟨s, hs, rfl⟩ := exists_lastStop hlast
    rw [subqueries_eq htext] at hs
    have hbehind :=
      (le_floor_iff (body_boundaries hs).2 offset).2 (Nat.le_of_lt hlt)
    simp only [span, hclean, hlast, Option.getD_some]
    exact ⟨Nat.max_le.2 ⟨hstart, hbehind⟩, hstop, hle⟩
  | unstructured =>
    rw [span, hclean]
    exact ⟨hstart, hstop, hle⟩

/-! ## The definitions that an offset sees -/

/-- An offset sees the definitions whose bodies have begun, whichever scope
it lies in. -/
theorem visible_eq_begun (htext : r.document = Document.ofText text)
    (offset : Nat) :
    r.visible (r.scopeAt offset) offset
      = r.subqueries.filter (·.bodyStart ≤ offset) := by
  have hplace : ∀ s ∈ r.subqueries, s.StandsIn text := by
    rw [subqueries_eq htext]
    exact fun s => standsIn_of_mem
  cases hscope : r.scopeAt offset with
  | subquery current =>
    obtain ⟨hcurrent, hlow, hhigh⟩ := scopeAt_eq_subquery hscope
    refine List.filter_congr fun s hs => decide_eq_decide.2 ?_
    have hstart := (hplace s hs).start_lt
    have hbody := (hplace s hs).bodyStart_le
    have hstop := (hplace s hs).stop_eq
    have hstop' := (hplace current hcurrent).stop_eq
    have hstart' := (hplace current hcurrent).start_lt
    rw [subqueries_eq htext] at hs hcurrent
    by_cases hsame : s = current
    · simp [hsame, hlow]
    · have hapart := definitions_apart hs hcurrent hsame
      omega
  | main =>
    obtain ⟨last, hlast, hlt⟩ := scopeAt_eq_main hscope
    refine (List.filter_eq_self.2 fun s hs => decide_eq_true ?_).symm
    have hbody := (hplace s hs).bodyStart_le
    have hstop := (hplace s hs).stop_eq
    have hle := le_lastStop hlast hs
    omega
  | unstructured =>
    refine List.filter_congr fun s hs => decide_eq_decide.2 ?_
    have hbody := (hplace s hs).bodyStart_le
    have hstop := (hplace s hs).stop_eq
    have hout := scopeAt_eq_unstructured hscope hs
    omega

end Resolver

/-- In a list that is in the order of a key, the elements up to some key
come first. -/
theorem filter_le_prefix {α : Type} {key : α → Nat} {xs : List α}
    (h : xs.Pairwise (key · ≤ key ·)) (bound : Nat) :
    xs.filter (key · ≤ bound) <+: xs := by
  induction h with
  | nil => exact List.nil_prefix
  | @cons x xs hfirst _ ih =>
    by_cases hx : key x ≤ bound
    · rw [List.filter_cons_of_pos (by simpa using hx)]
      exact List.cons_prefix_cons.2 ⟨rfl, ih⟩
    · have hnone : xs.filter (key · ≤ bound) = [] := by
        refine List.filter_eq_nil_iff.2 fun y hy hle => hx ?_
        exact Nat.le_trans (hfirst y hy) (by simpa using hle)
      rw [List.filter_cons_of_neg (by simpa using hx), hnone]
      exact List.nil_prefix

/-- The bodies of a text begin in the order of its definitions. -/
theorem bodies_in_order (text : Text) :
    (parseSubqueries text).Pairwise (·.bodyStart ≤ ·.bodyStart) := by
  refine (List.Pairwise.and_mem.1 (parseSubqueries_ordered text)).imp ?_
  rintro a b ⟨ha, hb, hle⟩
  have hbody := (standsIn_of_mem ha).bodyStart_le
  have hstop := (standsIn_of_mem ha).stop_eq
  have hstart := (standsIn_of_mem hb).start_lt
  omega

/-- At an offset the bodies that have begun come first among those that have
begun at a later one. -/
theorem begun_prefix (text : Text) {offset offset' : Nat}
    (h : offset ≤ offset') :
    (parseSubqueries text).filter (·.bodyStart ≤ offset)
      <+: (parseSubqueries text).filter (·.bodyStart ≤ offset') := by
  have hfewer : (parseSubqueries text).filter (·.bodyStart ≤ offset)
      = ((parseSubqueries text).filter (·.bodyStart ≤ offset')).filter
        (·.bodyStart ≤ offset) := by
    rw [List.filter_filter]
    refine List.filter_congr fun s _ => ?_
    rw [← Bool.decide_and]
    exact decide_eq_decide.2 (by omega)
  rw [hfewer]
  exact filter_le_prefix
    ((bodies_in_order text).sublist List.filter_sublist) offset

/-- Every offset, inside a character or past the end as well, has a span that
lies in the text and holds the boundary below the offset. It sees a first part
of the definitions, which are in order: those whose bodies have begun. A later
offset sees these too, and further ones only behind them. -/
theorem visibility_only_grows (text : Text) (catalog : Option Catalog)
    (offset : Nat) :
    let r : Resolver := { document := Document.ofText text, catalog }
    let bindings := r.bindingsAt offset
    (bindings.span.1 ≤ text.sanitize.floor offset ∧
        text.sanitize.floor offset ≤ bindings.span.2 ∧
        bindings.span.2 ≤ text.width) ∧
      (parseSubqueries text).Pairwise (fun a b => a.stop ≤ b.start) ∧
      bindings.visible <+: parseSubqueries text ∧
      bindings.visible = (parseSubqueries text).filter (·.bodyStart ≤ offset) ∧
      ∀ offset', offset ≤ offset' →
        bindings.visible <+: (r.bindingsAt offset').visible := by
  intro r bindings
  have hsees : ∀ offset,
      (r.bindingsAt offset).visible
        = (parseSubqueries text).filter (·.bodyStart ≤ offset) :=
    fun offset => Resolver.visible_eq_begun rfl offset
  refine ⟨Resolver.spanAt_around rfl offset, parseSubqueries_ordered text, ?_,
    hsees offset, ?_⟩
  · rw [hsees]
    exact filter_le_prefix (bodies_in_order text) offset
  · intro offset' hle
    rw [hsees, hsees]
    exact begun_prefix text hle

/-- Two definitions, the first one with a column list and a character of two
bytes, and a second statement. -/
def layeredQuery : Text :=
  ("WITH a (n) AS (SELECT 'é' FROM t), b AS (SELECT n FROM a) "
    ++ "SELECT n FROM b; SELECT 2").toList

/-- Inside the character, between the definitions, and past the end. -/
theorem visibility_only_grows_layeredQuery :
    let r : Resolver :=
      { document := Document.ofText layeredQuery, catalog := none }
    (r.bindingsAt 24).visible.map Subquery.name = ["A"] ∧
      (r.bindingsAt 90).visible.map Subquery.name = ["A", "B"] ∧
      (r.bindingsAt 24).visible <+: (r.bindingsAt 36).visible ∧
      (r.bindingsAt 36).visible <+: (r.bindingsAt 90).visible := by
  intro r
  obtain ⟨-, -, -, -, hinside⟩ := visibility_only_grows layeredQuery none 24
  obtain ⟨-, -, -, -, hbetween⟩ := visibility_only_grows layeredQuery none 36
  exact ⟨by decide +kernel, by decide +kernel, hinside 36 (by decide),
    hbetween 90 (by decide)⟩

end QueryAssist
