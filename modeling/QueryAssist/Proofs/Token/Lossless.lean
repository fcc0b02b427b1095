import QueryAssist.Proofs.Token.Truncation

/-!
# Tokens lose nothing

Whatever a text holds, its tokens are slices of it in order, and all that stands
between them is blank. Where a token ends does not depend on what stands behind
it beyond that it ends there: read on its own, it is one token of the same kind.
-/

namespace QueryAssist

open Text

/-! ## A token in its text -/

namespace Lexes

variable {offset : Nat} {text : Text} {ts : List Token}

/-- A token starts with a character that is not blank, has the kind that this
character begins, and covers what belongs to it. -/
theorem parts (h : Lexes offset text ts) {t : Token} (ht : t ∈ ts)
    (front : Text) (hfront : width front = offset) :
    ∃ a c more rest, front ++ text = a ++ ((c :: more) ++ rest) ∧
      isBlank c = false ∧ munch c (more ++ rest) = (t.kind, more.length) ∧
      t.text = String.ofList (c :: more) ∧ t.start = width a ∧
      t.stop = width a + width (c :: more) := by
  induction h generalizing front with
  | done => cases ht
  | @blank offset c cs ts hblank tail ih =>
    obtain ⟨a, d, more, rest, htext, hparts⟩ :=
      ih ht (front ++ [c]) (by simp [hfront])
    exact ⟨a, d, more, rest, by rw [← htext, List.append_assoc]; rfl, hparts⟩
  | @token offset c more rest kind ts hblank hmunch tail ih =>
    rcases List.mem_cons.1 ht with rfl | ht
    · exact ⟨front, c, more, rest, rfl, hblank, hmunch, rfl, hfront.symm,
        by rw [hfront]⟩
    · obtain ⟨a, d, more', rest', htext, hparts⟩ :=
        ih ht (front ++ c :: more) (by simp [hfront])
      exact ⟨a, d, more', rest', by rw [← htext]; simp, hparts⟩

theorem start_ge (h : Lexes offset text ts) : ∀ t ∈ ts, offset ≤ t.start := by
  intro t ht
  induction h with
  | done => cases ht
  | blank hblank tail ih => exact Nat.le_trans (Nat.le_add_right _ _) (ih ht)
  | token hblank hmunch tail ih =>
    rcases List.mem_cons.1 ht with rfl | ht
    · exact Nat.le_refl _
    · exact Nat.le_trans (Nat.le_add_right _ _) (ih ht)

/-- Every token starts at or behind the end of the ones before it. -/
theorem ordered (h : Lexes offset text ts) :
    ts.Pairwise fun t u => t.start < u.start ∧ t.stop ≤ u.start := by
  induction h with
  | done => exact List.Pairwise.nil
  | blank hblank tail ih => exact ih
  | @token offset c more rest kind ts hblank hmunch tail ih =>
    refine List.pairwise_cons.2 ⟨?_, ih⟩
    intro u hu
    have hle := tail.start_ge u hu
    have hpos := c.utf8Size_pos
    rw [width_cons] at hle ⊢
    exact ⟨by simp only; omega, hle⟩

/-- A character that is not blank lies in a token. -/
theorem covers (h : Lexes offset text ts) {a b : Text} {c : Char}
    (htext : text = a ++ c :: b) (hc : isBlank c = false) :
    ∃ t ∈ ts, t.start ≤ offset + width a ∧ offset + width a < t.stop := by
  induction h generalizing a with
  | done => simp at htext
  | @blank offset d cs ts hblank tail ih =>
    cases a with
    | nil =>
      obtain ⟨rfl, -⟩ := List.cons.inj htext
      rw [hblank] at hc
      cases hc
    | cons e a =>
      obtain ⟨rfl, hcs⟩ := List.cons.inj htext
      obtain ⟨t, ht, hrange⟩ := ih hcs
      rw [Nat.add_assoc, ← width_cons] at hrange
      exact ⟨t, ht, hrange⟩
  | @token offset d more rest kind ts hblank hmunch tail ih =>
    by_cases hin : width a < width (d :: more)
    · refine ⟨_, List.mem_cons_self, Nat.le_add_right _ _, ?_⟩
      simp only
      omega
    -- Otherwise the character stands behind this token.
    · have hsplit : (d :: more) ++ rest = a ++ c :: b := htext
      obtain ⟨behind, rfl, hrest⟩ :=
        append_eq_of_width_le hsplit (Nat.le_of_not_lt hin)
      obtain ⟨t, ht, hrange⟩ := ih hrest
      rw [Nat.add_assoc, ← width_append] at hrange
      exact ⟨t, List.mem_cons_of_mem _ ht, hrange⟩

end Lexes

/-! ## A token read on its own -/

theorem tokenize_of_munch {c : Char} {more rest : Text} {kind : TokenKind}
    (hblank : isBlank c = false)
    (hmunch : munch c (more ++ rest) = (kind, more.length)) :
    tokenize (c :: more)
      = [{ kind, text := String.ofList (c :: more), start := 0,
           stop := width (c :: more) }] := by
  have hle : (munch c (more ++ rest)).2 ≤ more.length :=
    Nat.le_of_eq (congrArg Prod.snd hmunch)
  have halone : munch c more = (kind, more.length) := by
    rw [munch_append_of_le hle, hmunch]
  have hend : tokensFrom more.length (0 + c.utf8Size) more = [] := by
    have hskip := tokensFrom_skip more (0 + c.utf8Size) []
    rwa [List.append_nil] at hskip
  rw [tokenize, tokensFrom_of_not_isBlank (by simp [hblank]), halone,
    List.take_length, hend, Nat.zero_add]

/-- Tokens are slices of whole characters, one behind the other; a character
outside all of them is blank, and none starts with a blank. Each of them, read
on its own, is one token of the same kind. -/
theorem tokens_tile_text (text : Text) :
    (∀ t ∈ tokenize text, text.IsRange t.start t.stop ∧
        text.slice? t.start t.stop = some t.text.toList) ∧
      ((tokenize text).Pairwise fun t u =>
        t.start < u.start ∧ t.stop ≤ u.start) ∧
      (∀ offset c, HasAt text offset c →
        (∀ t ∈ tokenize text, ¬ (t.start ≤ offset ∧ offset < t.stop)) →
        isBlank c = true) ∧
      (∀ t ∈ tokenize text, ∃ c, HasAt text t.start c ∧ isBlank c = false) ∧
      (∀ t ∈ tokenize text,
        tokenize t.text.toList
          = [{ kind := t.kind, text := t.text, start := 0,
               stop := width t.text.toList }]) := by
  have hlexes := lexes_tokenize text
  refine ⟨?_, hlexes.ordered, ?_, ?_, ?_⟩
  · intro t ht
    obtain ⟨a, c, more, rest, htext, -, -, hchars, hstart, hstop⟩ :=
      hlexes.parts ht [] rfl
    rw [List.nil_append] at htext
    have hrange : text.IsRange t.start t.stop := by
      rw [htext, hstart, hstop]
      exact IsRange.of_parts (List.cons_ne_nil c more)
    refine ⟨hrange, ?_⟩
    rw [slice?_of_isRange hrange, htext, hstart, hstop, slice_parts, hchars,
      String.toList_ofList]
  · rintro offset c ⟨a, b, htext, rfl⟩ houtside
    rcases hc : isBlank c with _ | _
    · obtain ⟨t, ht, hrange⟩ := hlexes.covers htext hc
      rw [Nat.zero_add] at hrange
      exact absurd hrange (houtside t ht)
    · rfl
  · intro t ht
    obtain ⟨a, c, more, rest, htext, hblank, -, -, hstart, -⟩ :=
      hlexes.parts ht [] rfl
    exact ⟨c, ⟨a, more ++ rest, htext, hstart.symm⟩, hblank⟩
  · intro t ht
    obtain ⟨a, c, more, rest, -, hblank, hmunch, hchars, -, -⟩ :=
      hlexes.parts ht [] rfl
    rw [hchars, String.toList_ofList]
    exact tokenize_of_munch hblank hmunch

/-- Numbers with and without a fraction before a dot, a parameter before a cast,
and a literal that is never closed. -/
def crowdedQuery : Text := "é1.5.2.x :a::b 'ß ".toList

theorem tokens_tile_text_crowdedQuery :
    (⟨.parameter, ":a", 10, 12⟩ : Token) ∈ tokenize crowdedQuery ∧
      (⟨.string, "'ß ", 16, 20⟩ : Token) ∈ tokenize crowdedQuery ∧
      crowdedQuery.slice? 16 20 = some "'ß ".toList ∧
      tokenize ":a".toList = [⟨.parameter, ":a", 0, 2⟩] ∧
      tokenize "'ß ".toList = [⟨.string, "'ß ", 0, 4⟩] := by
  obtain ⟨hslices, -, -, -, halone⟩ := tokens_tile_text crowdedQuery
  have hparameter : (⟨.parameter, ":a", 10, 12⟩ : Token)
      ∈ tokenize crowdedQuery := by decide +kernel
  have hliteral : (⟨.string, "'ß ", 16, 20⟩ : Token)
      ∈ tokenize crowdedQuery := by decide +kernel
  exact ⟨hparameter, hliteral, (hslices _ hliteral).2, halone _ hparameter,
    halone _ hliteral⟩

end QueryAssist
