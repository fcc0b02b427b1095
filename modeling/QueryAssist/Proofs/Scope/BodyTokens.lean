import QueryAssist.Proofs.Query.Closing
import QueryAssist.Proofs.Scope.Span

/-!
# The tokens of a body

The body of a definition is read twice. When the definition is found, its tokens
are those behind the opening parenthesis, one after the other, as long as they
start before the offset that closes the body. When names are resolved, they are
cut out of all tokens of the text by the two offsets of the body. Tokens come in
order, and none starts inside another, so both are the tokens that start between
the two offsets, also where the closing offset lies inside a quoted name.
-/

namespace QueryAssist

open Text

/-! ## Ranges of tokens -/

section

variable {tokens : List Token} (hord : tokens.Pairwise (·.start < ·.start))

include hord

theorem takeWhile_eq_filter (stop : Nat) :
    tokens.takeWhile (·.start < stop) = tokens.filter (·.start < stop) := by
  induction tokens with
  | nil => rfl
  | cons t ts ih =>
    obtain ⟨hfirst, hrest⟩ := List.pairwise_cons.1 hord
    by_cases hlt : t.start < stop
    · rw [List.takeWhile_cons_of_pos (by simpa using hlt),
        List.filter_cons_of_pos (by simpa using hlt), ih hrest]
    · have hnone : ts.filter (·.start < stop) = [] := by
        rw [List.filter_eq_nil_iff]
        intro u hu
        have := hfirst u hu
        simp only [decide_eq_true_eq]
        omega
      rw [List.takeWhile_cons_of_neg (by simpa using hlt),
        List.filter_cons_of_neg (by simpa using hlt), hnone]

theorem dropWhile_eq_filter (start : Nat) :
    tokens.dropWhile (·.start < start) = tokens.filter (start ≤ ·.start) := by
  induction tokens with
  | nil => rfl
  | cons t ts ih =>
    obtain ⟨hfirst, hrest⟩ := List.pairwise_cons.1 hord
    by_cases hlt : t.start < start
    · rw [List.dropWhile_cons_of_pos (by simpa using hlt),
        List.filter_cons_of_neg (by simpa using hlt), ih hrest]
    · have hle := Nat.le_of_not_lt hlt
      have hall : ts.filter (start ≤ ·.start) = ts := by
        rw [List.filter_eq_self]
        intro u hu
        have := hfirst u hu
        simp only [decide_eq_true_eq]
        omega
      rw [List.dropWhile_cons_of_neg (by simpa using hlt),
        List.filter_cons_of_pos (by simpa using hle), hall]

end

namespace Resolver

variable {r : Resolver} {text : Text}

/-- The tokens between two cuts are those that start between the two offsets. -/
theorem tokensIn_eq_filter (htext : r.document = Document.ofText text)
    (span : Nat × Nat) :
    r.tokensIn span
      = r.document.tokens.filter fun t =>
        span.1 ≤ t.start ∧ t.start < span.2 := by
  have hord : r.document.tokens.Pairwise (·.start < ·.start) := by
    rw [htext]
    exact (aligned_tokenize text).starts_increase
  rw [tokensIn_eq, dropWhile_eq_filter hord,
    takeWhile_eq_filter (hord.filter _), List.filter_filter]
  apply List.filter_congr
  intro t _
  rw [Bool.decide_and, Bool.and_comm]

/-- What stands behind a token up to an offset is cut out by the end of the
token and the offset. -/
theorem takeWhile_behind (htext : r.document = Document.ofText text)
    {before after : List Token} {opening : Token}
    (htokens : r.document.tokens = before ++ opening :: after) (stop : Nat) :
    after.takeWhile (·.start < stop) = r.tokensIn (opening.stop, stop) := by
  have haligned : Aligned text (before ++ opening :: after) := by
    rw [← htokens, htext]
    exact aligned_tokenize text
  have hopening : opening.start < opening.stop :=
    (haligned.range opening (by simp)).lt
  obtain ⟨-, hbehind, hfront⟩ := List.pairwise_append.1 haligned.ordered
  have hbefore : ∀ t ∈ before, t.start < opening.stop := by
    intro t ht
    have := (haligned.range t (by simp [ht])).lt
    have := hfront t ht opening (by simp)
    omega
  have hafter : after.dropWhile (·.start < opening.stop) = after := by
    cases after with
    | nil => rfl
    | cons u us =>
      have := (List.pairwise_cons.1 hbehind).1 u (by simp)
      rw [List.dropWhile_cons_of_neg]
      simp only [decide_eq_true_eq]
      omega
  rw [tokensIn_eq, htokens,
    List.dropWhile_append_of_pos (by simpa using hbefore),
    List.dropWhile_cons_of_pos (by simpa using hopening), hafter]

end Resolver

/-! ## The body of a definition -/

/-- A definition is read with these tokens as its body: they stand behind the
opening parenthesis and start before the offset that closes the body. -/
def Subquery.IsReadWith (s : Subquery) (text : Text)
    (body : List Token) : Prop :=
  ∃ before name rest declared afterColumns opening after,
    tokenize text.sanitize = before ++ name :: rest ∧
      readColumnList rest = some (declared, afterColumns) ∧
      readBodyOpening afterColumns = some (opening, after) ∧
      text.sanitize.matchingParen opening.start = some s.bodyStop ∧
      s.bodyStart = opening.stop ∧
      body = after.takeWhile (·.start < s.bodyStop) ∧
      definitionAt text text.sanitize before.getLast? name rest
        = some (s, rest.length - after.length + body.length + 1)

/-- What is read of a definition on the way to its body. -/
theorem definitionAt_eq_some {text clean : Text} {previous : Option Token}
    {name : Token} {rest : List Token} {s : Subquery} {used : Nat}
    (h : definitionAt text clean previous name rest = some (s, used)) :
    ∃ declared afterColumns opening after,
      readColumnList rest = some (declared, afterColumns) ∧
        readBodyOpening afterColumns = some (opening, after) ∧
        clean.matchingParen opening.start = some s.bodyStop ∧
        s.bodyStart = opening.stop ∧
        s.fromTables
          = (tableRefs (after.takeWhile (·.start < s.bodyStop))).map
            TableRef.upper ∧
        used = rest.length - after.length
          + (after.takeWhile (·.start < s.bodyStop)).length + 1 := by
  unfold definitionAt at h
  split at h
  · rcases hcols : readColumnList rest with _ | ⟨declared, afterColumns⟩
    · simp [hcols] at h
    · rcases hopen : readBodyOpening afterColumns with _ | ⟨opening, after⟩
      · simp [hcols, hopen] at h
      · rcases hclose : clean.matchingParen opening.start with _ | close
        · simp [hcols, hopen, hclose] at h
        · simp only [hcols, hopen, hclose, Option.bind_eq_bind,
            Option.bind_some, Option.some.injEq, Prod.mk.injEq] at h
          obtain ⟨rfl, rfl⟩ := h
          exact ⟨declared, afterColumns, opening, after, rfl, hopen, hclose,
            rfl, rfl, rfl⟩
  · cases h

theorem exists_isReadWith {text : Text} {s : Subquery}
    (h : s ∈ parseSubqueries text) {r : Resolver}
    (htext : r.document = Document.ofText text) :
    s.IsReadWith text (r.tokensIn (s.bodyStart, s.bodyStop)) ∧
      s.fromTables
        = (tableRefs (r.tokensIn (s.bodyStart, s.bodyStop))).map
          TableRef.upper := by
  obtain ⟨before, name, rest, used, htokens, hat⟩ := mem_parseSubqueries h
  obtain ⟨declared, afterColumns, opening, after, hcolumns, hopening, hclose,
    hstart, htables, rfl⟩ := definitionAt_eq_some hat
  obtain ⟨between, hbetween⟩ :=
    (readBodyOpening_eq_some hopening).2.trans (readColumnList_eq_some hcolumns)
  have hall : r.document.tokens
      = (before ++ name :: between) ++ opening :: after := by
    rw [htext, List.append_assoc, List.cons_append, hbetween]
    exact htokens
  have hbody := Resolver.takeWhile_behind htext hall s.bodyStop
  rw [hstart, ← hbody]
  exact ⟨⟨before, name, rest, declared, afterColumns, opening, after, htokens,
      hcolumns, hopening, hclose, hstart, rfl, hat⟩, htables⟩

/-- The tokens of a range are exactly those that start in it. The tokens with
which a definition is read as its body are those of the range of its body. So
the tables that it was found to read are the tables that bind names in its
body, in order. -/
theorem bodies_are_read_alike (text : Text) (catalog : Option Catalog) :
    let r : Resolver := { document := Document.ofText text, catalog }
    (∀ span,
        r.tokensIn span
          = r.document.tokens.filter fun t =>
            span.1 ≤ t.start ∧ t.start < span.2) ∧
    ∀ s ∈ r.subqueries,
      s.IsReadWith text (r.tokensIn (s.bodyStart, s.bodyStop)) ∧
      s.fromTables = (r.bodyBindings s).tables.map TableRef.upper := by
  intro r
  refine ⟨Resolver.tokensIn_eq_filter rfl, fun s hs => ?_⟩
  exact exists_isReadWith hs rfl

/-- A body whose closing offset lies inside a quoted name: the tokens behind
that offset are not part of it. -/
def cutNameQuery : Text :=
  "WITH a AS (SELECT 1 FROM t JOIN \"u)\" FROM v) SELECT 1 FROM a".toList

theorem bodies_are_read_alike_cutNameQuery :
    let r : Resolver :=
      { document := Document.ofText cutNameQuery, catalog := none }
    ∃ s ∈ r.subqueries, (s.bodyStart, s.bodyStop) = (11, 34) ∧
      s.IsReadWith cutNameQuery (r.tokensIn (s.bodyStart, s.bodyStop)) ∧
      s.fromTables = ["T", "U)"] ∧
      s.fromTables = (r.bodyBindings s).tables.map TableRef.upper := by
  intro r
  have hfound : ∃ s ∈ r.subqueries,
      (s.bodyStart, s.bodyStop) = (11, 34) ∧ s.fromTables = ["T", "U)"] := by
    decide +kernel
  obtain ⟨s, hs, hbody, htables⟩ := hfound
  obtain ⟨-, hall⟩ := bodies_are_read_alike cutNameQuery none
  exact ⟨s, hs, hbody, (hall s hs).1, htables, (hall s hs).2⟩

end QueryAssist
