import QueryAssist.Proofs.Query.Layout
import QueryAssist.Proofs.Token.StatementEnds
import QueryAssist.Scope.Basic

/-!
# Spans of scopes

The span of an offset tells its scope: a body starts after an opening
parenthesis, a statement starts the text or after a semicolon, and the main
query starts no earlier than the last definition stops. What can be named at an
offset depends on its span alone, but for one thing: outside bodies and the main
query it also depends on which definitions stop before it.
-/

namespace QueryAssist

open Text

/-! ## Statements -/

/-- A statement starts the text or after a semicolon, and not after the offset
it is asked for. -/
theorem statementBounds_start (clean : Text) (offset : Nat) :
    (clean.statementBounds offset).1 ≤ offset ∧
      ((clean.statementBounds offset).1 = 0 ∨
        HasAt clean ((clean.statementBounds offset).1 - 1) ';') := by
  have hencloses := encloses_statementBounds clean offset
  refine ⟨Nat.le_trans hencloses.start_le (floor_le clean offset), ?_⟩
  rcases hencloses.start_at with hzero | ⟨i, hi, heq⟩
  · exact Or.inl hzero
  · right
    rw [heq, Nat.add_sub_cancel]
    exact hi

namespace Resolver

variable {r : Resolver} {text : Text} {offset offset' : Nat}

/-- The bytes whose clauses bind names for an offset. -/
def spanAt (r : Resolver) (offset : Nat) : Nat × Nat :=
  r.span (r.scopeAt offset) offset

theorem subqueries_eq (htext : r.document = Document.ofText text) :
    r.subqueries = parseSubqueries text := by
  rw [subqueries, htext]
  rfl

/-! ## The three scopes -/

theorem le_lastStop {stop : Nat} (h : r.lastStop = some stop) {s : Subquery}
    (hs : s ∈ r.subqueries) : s.stop ≤ stop :=
  (List.max?_eq_some_iff.1 h).2 _ (List.mem_map_of_mem hs)

theorem exists_lastStop {stop : Nat} (h : r.lastStop = some stop) :
    ∃ s ∈ r.subqueries, s.stop = stop :=
  List.mem_map.1 (List.max?_eq_some_iff.1 h).1

/-- An offset lies in a body, or after the last definition, or not after it. -/
theorem scopeAt_cases (r : Resolver) (offset : Nat) :
    (∃ s ∈ r.subqueries, r.scopeAt offset = .subquery s) ∨
      (∃ stop, r.lastStop = some stop ∧ r.scopeAt offset = .main) ∨
      r.scopeAt offset = .unstructured ∧
        ∀ stop, r.lastStop = some stop → offset ≤ stop := by
  rcases hfind : r.subqueries.find? (·.containsBody offset) with _ | s
  · rcases hlast : r.lastStop with _ | stop
    · right; right
      simp [scopeAt, hfind, hlast]
    · by_cases hlt : stop < offset
      · right; left
        exact ⟨stop, rfl, by simp [scopeAt, hfind, hlast, hlt]⟩
      · right; right
        refine ⟨by simp [scopeAt, hfind, hlast, hlt], ?_⟩
        rintro _ ⟨⟩
        omega
  · left
    exact ⟨s, List.mem_of_find?_eq_some hfind, by simp [scopeAt, hfind]⟩

/-- The statement at an offset starts the text or after a semicolon of it. -/
theorem statement_start (htext : r.document = Document.ofText text)
    (offset : Nat) :
    (r.document.clean.statementBounds offset).1 = 0 ∨
      HasAt text ((r.document.clean.statementBounds offset).1 - 1) ';' := by
  rw [htext]
  rcases (statementBounds_start text.sanitize offset).2 with h | h
  · exact Or.inl h
  · exact Or.inr (hasAt_of_maskFrom h (by decide))

/-- Two definitions with the same body are one. -/
theorem eq_of_body_eq (htext : r.document = Document.ofText text)
    {s s' : Subquery} (hs : s ∈ r.subqueries) (hs' : s' ∈ r.subqueries)
    (h : s.bodyStop = s'.bodyStop) : s = s' := by
  rw [subqueries_eq htext] at hs hs'
  obtain ⟨-, -, hstart, hbody, hstop⟩ := body_parens hs
  obtain ⟨-, -, hstart', hbody', hstop'⟩ := body_parens hs'
  have hord := parseSubqueries_ordered text
  -- Of two definitions in order, the later one starts where the earlier one
  -- has stopped.
  generalize parseSubqueries text = subqueries at hs hs' hord
  induction hord with
  | nil => simp at hs
  | cons hfirst _ ih =>
    rcases List.mem_cons.1 hs with rfl | hin
    · rcases List.mem_cons.1 hs' with rfl | hin'
      · rfl
      · have := hfirst _ hin'
        omega
    · rcases List.mem_cons.1 hs' with rfl | hin'
      · have := hfirst _ hin
        omega
      · exact ih hin hin'

/-- The main query starts where the last definition stops or later, and
no body does. -/
theorem body_span_ne_main (htext : r.document = Document.ofText text)
    {s : Subquery} (hs : s ∈ r.subqueries) {stop : Nat}
    (hlast : r.lastStop = some stop) (offset offset' : Nat) :
    r.span (.subquery s) offset ≠ r.span .main offset' := by
  intro h
  have hle := le_lastStop hlast hs
  rw [subqueries_eq htext] at hs
  obtain ⟨-, -, -, hbody, hstop⟩ := body_parens hs
  simp only [span, hlast, Option.getD_some, Prod.mk.injEq] at h
  omega

/-- No body starts a statement, because a parenthesis stands before it. -/
theorem body_span_ne_statement (htext : r.document = Document.ofText text)
    {s : Subquery} (hs : s ∈ r.subqueries) (offset offset' : Nat) :
    r.span (.subquery s) offset ≠ r.span .unstructured offset' := by
  intro h
  rw [subqueries_eq htext] at hs
  obtain ⟨hopen, -, hstart, -, -⟩ := body_parens hs
  have hstarts : s.bodyStart = (r.document.clean.statementBounds offset').1 :=
    congrArg Prod.fst h
  rcases statement_start htext offset' with hzero | hsemi
  · omega
  · rw [← hstarts] at hsemi
    exact absurd (hopen.unique hsemi) (by decide)

/-- A statement that an offset before the last stop lies in starts before the
main query does: at the last stop itself no statement starts, because a
parenthesis stands before it. -/
theorem main_span_ne_statement (htext : r.document = Document.ofText text)
    {stop : Nat} (hlast : r.lastStop = some stop) (offset : Nat)
    (hle : offset' ≤ stop) :
    r.span .main offset ≠ r.span .unstructured offset' := by
  intro h
  obtain ⟨s, hs, hstop⟩ := exists_lastStop hlast
  rw [subqueries_eq htext] at hs
  obtain ⟨-, hclose, -, -, hnext⟩ := body_parens hs
  have hstarts : max (r.document.clean.statementBounds offset).1 stop
      = (r.document.clean.statementBounds offset').1 := by
    have := congrArg Prod.fst h
    simpa only [span, hlast, Option.getD_some] using this
  have hbefore := (statementBounds_start r.document.clean offset').1
  have heq : (r.document.clean.statementBounds offset').1 = stop := by omega
  rcases statement_start htext offset' with hzero | hsemi
  · omega
  · rw [heq, show stop - 1 = s.bodyStop by omega] at hsemi
    exact absurd (hclose.unique hsemi) (by decide)

/-- Offsets of one span lie in one scope. -/
theorem scopeAt_of_spanAt_eq (htext : r.document = Document.ofText text)
    (h : r.spanAt offset = r.spanAt offset') :
    r.scopeAt offset = r.scopeAt offset' := by
  unfold spanAt at h
  -- Of the nine pairs of scopes, the mixed ones have different spans.
  rcases scopeAt_cases r offset
      with ⟨s, hs, hscope⟩ | ⟨stop, hlast, hscope⟩ | ⟨hscope, hle⟩
    <;> rcases scopeAt_cases r offset'
      with ⟨s', hs', hscope'⟩ | ⟨stop', hlast', hscope'⟩ | ⟨hscope', hle'⟩ <;>
    rw [hscope, hscope'] at h ⊢
  · have hstops : s.bodyStop = s'.bodyStop := congrArg Prod.snd h
    rw [eq_of_body_eq htext hs hs' hstops]
  · exact absurd h (body_span_ne_main htext hs hlast' offset offset')
  · exact absurd h (body_span_ne_statement htext hs offset offset')
  · exact absurd h.symm (body_span_ne_main htext hs' hlast offset' offset)
  · exact absurd h (main_span_ne_statement htext hlast offset (hle' stop hlast))
  · exact absurd h.symm (body_span_ne_statement htext hs' offset' offset)
  · exact absurd h.symm
      (main_span_ne_statement htext hlast' offset' (hle stop' hlast'))

/-! ## What the span leaves open -/

/-- Whether two offsets see the same definitions as far as these are told apart
by the offset alone: in no scope but the one outside bodies and the main query
does the place among the definitions matter. -/
def SeesAlike (r : Resolver) (offset offset' : Nat) : Prop :=
  r.scopeAt offset = .unstructured →
    ∀ s ∈ r.subqueries, s.stop ≤ offset ↔ s.stop ≤ offset'

theorem visible_eq_iff (hscope : r.scopeAt offset = r.scopeAt offset') :
    r.visible (r.scopeAt offset) offset
        = r.visible (r.scopeAt offset') offset' ↔
      r.SeesAlike offset offset' := by
  rw [← hscope, SeesAlike]
  cases h : r.scopeAt offset with
  | subquery s => simp [visible]
  | main => simp [visible]
  | unstructured =>
    simp only [visible, forall_const]
    constructor
    · intro heq s hs
      have hmem : s ∈ r.subqueries.filter (·.stop ≤ offset) ↔
          s ∈ r.subqueries.filter (·.stop ≤ offset') := by
        rw [heq]
      simpa [hs] using hmem
    · intro hall
      refine List.filter_congr ?_
      intro s hs
      simp only [hall s hs]

/-- Offsets of one span have the same bindings up to the subqueries that
can be named. -/
theorem bindingsAt_of_spanAt_eq (htext : r.document = Document.ofText text)
    (h : r.spanAt offset = r.spanAt offset') :
    r.bindingsAt offset
      = { r.bindingsAt offset' with
        visible := r.visible (r.scopeAt offset) offset } := by
  have hspan : r.span (r.scopeAt offset) offset
      = r.span (r.scopeAt offset') offset' := h
  simp only [bindingsAt, bind, hspan]
  rw [scopeAt_of_spanAt_eq htext h]

/-- They are the same iff the offsets see the same definitions. -/
theorem bindingsAt_eq_iff (htext : r.document = Document.ofText text)
    (h : r.spanAt offset = r.spanAt offset') :
    r.bindingsAt offset = r.bindingsAt offset' ↔
      r.SeesAlike offset offset' := by
  rw [← visible_eq_iff (scopeAt_of_spanAt_eq htext h)]
  constructor
  · intro heq
    exact congrArg Bindings.visible heq
  · intro heq
    rw [bindingsAt_of_spanAt_eq htext h, heq]
    rfl

end Resolver

end QueryAssist
