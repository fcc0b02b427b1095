import QueryAssist.Proofs.Token.Tiling
import QueryAssist.Query.Document

/-!
# Layout of subquery definitions

Where a definition stands among the tokens: its name, the parenthesis that opens
its body, the offset that closes it and the tokens between. A subquery is read
off its layout, and the text itself is looked at only for the expressions of
renamed columns. The layouts of a document follow one another without overlap.
-/

namespace QueryAssist

open Text

/-! ## Layouts -/

/-- The place of a definition among the tokens. -/
structure Layout where
  nameToken : Token
  declared : Option (List String)
  /-- The parenthesis that opens the body. -/
  opening : Token
  /-- Offset of the parenthesis that closes the body. -/
  close : Nat
  /-- The tokens of the body. -/
  body : List Token
  deriving DecidableEq, Repr

/-- The subquery that a layout defines. -/
def Layout.subquery (text : Text) (layout : Layout) : Subquery :=
  let projection :=
    declareColumns layout.declared (projectionOf text layout.body)
  { name := layout.nameToken.upper
    columns := projection.columns
    wildcards := projection.wildcards
    start := layout.nameToken.start
    stop := layout.close + 1
    bodyStart := layout.opening.stop
    bodyStop := layout.close
    fromTables := (tableRefs layout.body).map TableRef.upper }

/-- The layout of the definition with the name `nameToken` between `previous`
and `rest`, and how many tokens of `rest` it takes. -/
def layoutAt (clean : Text) (previous : Option Token) (nameToken : Token)
    (rest : List Token) : Option (Layout × Nat) :=
  if nameToken.isIdentifier && previous.any Token.introducesDefinition then do
    let (declared, afterColumns) ← readColumnList rest
    let (opening, afterOpening) ← readBodyOpening afterColumns
    let close ← clean.matchingParen opening.start
    let body := afterOpening.takeWhile (·.start < close)
    some ({ nameToken, declared, opening, close, body },
      rest.length - afterOpening.length + body.length + 1)
  else none

/-- A definition is read off its layout. -/
theorem definitionAt_eq (text clean : Text) (previous : Option Token)
    (nameToken : Token) (rest : List Token) :
    definitionAt text clean previous nameToken rest
      = (layoutAt clean previous nameToken rest).map fun (layout, used) =>
        (layout.subquery text, used) := by
  unfold definitionAt layoutAt
  split
  · rcases readColumnList rest with _ | ⟨declared, afterColumns⟩
    · rfl
    · rcases hopen : readBodyOpening afterColumns
        with _ | ⟨opening, afterOpening⟩
      · simp [hopen]
      · rcases hclose : clean.matchingParen opening.start with _ | close
        · simp [hopen, hclose]
        · simp [hopen, hclose, Layout.subquery]
  · rfl

/-- Layouts in `tokens`, which follow `previous`, after the first
`skip` of them. -/
def layoutsFrom (clean : Text) (skip : Nat)
    (previous : Option Token) : List Token → List Layout
  | [] => []
  | t :: ts =>
    match skip with
    | n + 1 => layoutsFrom clean n (some t) ts
    | 0 =>
      match layoutAt clean previous t ts with
      | some (layout, used) => layout :: layoutsFrom clean used (some t) ts
      | none => layoutsFrom clean 0 (some t) ts

theorem definitionsFrom_eq (text clean : Text) (skip : Nat)
    (previous : Option Token) (tokens : List Token) :
    definitionsFrom text clean skip previous tokens
      = (layoutsFrom clean skip previous tokens).map
        (Layout.subquery text) := by
  induction tokens generalizing skip previous with
  | nil => rfl
  | cons t ts ih =>
    cases skip with
    | succ n => exact ih n (some t)
    | zero =>
      rw [definitionsFrom, layoutsFrom, definitionAt_eq]
      rcases layoutAt clean previous t ts with _ | ⟨layout, used⟩
      · exact ih 0 (some t)
      · exact congrArg _ (ih used (some t))

/-- The layouts of a masked text with its `tokens`. -/
def layoutsOf (clean : Text) (tokens : List Token) : List Layout :=
  if tokens.any (·.isKeyword "WITH") then layoutsFrom clean 0 none tokens
  else []

theorem subqueriesOf_eq (text clean : Text) (tokens : List Token) :
    subqueriesOf text clean tokens
      = (layoutsOf clean tokens).map (Layout.subquery text) := by
  unfold subqueriesOf layoutsOf
  split
  · exact definitionsFrom_eq text clean 0 none tokens
  · rfl

theorem parseSubqueries_eq (text : Text) :
    parseSubqueries text
      = subqueriesOf text text.sanitize (tokenize text.sanitize) := rfl

/-- Reading goes on behind the tokens that were taken. -/
theorem definitionsFrom_skip (text clean : Text) (previous : Option Token)
    (taken later : List Token) :
    definitionsFrom text clean taken.length previous (taken ++ later)
      = definitionsFrom text clean 0 (taken.getLast?.or previous) later := by
  induction taken generalizing previous with
  | nil => rfl
  | cons t ts ih =>
    rw [List.cons_append, List.length_cons, definitionsFrom, ih,
      List.getLast?_cons, Option.some_or]
    cases ts.getLast? <;> rfl

/-! ## What a layout is made of -/

theorem readColumnList_eq_some {tokens : List Token}
    {declared : Option (List String)} {rest : List Token}
    (h : readColumnList tokens = some (declared, rest)) : rest <:+ tokens := by
  cases tokens with
  | nil => simp [readColumnList] at h
  | cons t ts =>
    rw [readColumnList] at h
    split at h
    · rcases hlen : groupLength 0 ts with _ | n
      · simp [hlen] at h
      · simp only [hlen, Option.bind_eq_bind, Option.bind_some,
          Option.some.injEq, Prod.mk.injEq] at h
        rw [← h.2]
        exact (List.drop_suffix _ _).trans (List.suffix_cons t ts)
    · simp only [Option.some.injEq, Prod.mk.injEq] at h
      exact h.2 ▸ List.suffix_rfl

theorem dropKeyword_suffix (keyword : String) (tokens : List Token) :
    dropKeyword keyword tokens <:+ tokens := by
  cases tokens with
  | nil => exact List.suffix_rfl
  | cons t ts =>
    rw [dropKeyword]
    split
    · exact List.suffix_cons t ts
    · exact List.suffix_rfl

theorem readBodyOpening_eq_some {tokens rest : List Token} {opening : Token}
    (h : readBodyOpening tokens = some (opening, rest)) :
    opening.kind = .leftParen ∧ opening :: rest <:+ tokens := by
  cases tokens with
  | nil => simp [readBodyOpening] at h
  | cons t ts =>
    rw [readBodyOpening] at h
    split at h
    · split at h
      · cases h
      · rename_i first after hdrop
        split at h
        · rename_i hkind
          simp only [Option.some.injEq, Prod.mk.injEq] at h
          obtain ⟨rfl, rfl⟩ := h
          refine ⟨by simpa using hkind, ?_⟩
          rw [← hdrop]
          exact ((dropKeyword_suffix _ _).trans (dropKeyword_suffix _ _)).trans
            (List.suffix_cons t ts)
        · cases h
    · cases h

/-- A definition takes its name, what leads to the opening parenthesis, the body
and one more token. -/
theorem layoutAt_eq_some {clean : Text} {previous : Option Token}
    {nameToken : Token} {rest : List Token} {layout : Layout} {used : Nat}
    (h : layoutAt clean previous nameToken rest = some (layout, used)) :
    layout.nameToken = nameToken ∧ layout.opening.kind = .leftParen ∧
      clean.matchingParen layout.opening.start = some layout.close ∧
      ∃ between after, rest = between ++ layout.opening :: after ∧
        layout.body = after.takeWhile (·.start < layout.close) ∧
        used = between.length + 1 + layout.body.length + 1 := by
  unfold layoutAt at h
  split at h
  · rcases hcols : readColumnList rest with _ | ⟨declared, afterColumns⟩
    · simp [hcols] at h
    · rcases hopen : readBodyOpening afterColumns
        with _ | ⟨opening, afterOpening⟩
      · simp [hcols, hopen] at h
      · rcases hclose : clean.matchingParen opening.start with _ | close
        · simp [hcols, hopen, hclose] at h
        · simp only [hcols, hopen, hclose, Option.bind_eq_bind,
            Option.bind_some, Option.some.injEq, Prod.mk.injEq] at h
          obtain ⟨rfl, rfl⟩ := h
          obtain ⟨hkind, hsuffix⟩ := readBodyOpening_eq_some hopen
          obtain ⟨between, hbetween⟩ :=
            hsuffix.trans (readColumnList_eq_some hcols)
          refine ⟨rfl, hkind, hclose, between, afterOpening, hbetween.symm, rfl,
            ?_⟩
          rw [← hbetween]
          simp only [List.length_append, List.length_cons]
          omega
  · cases h

/-- A layout of a token list was read at its name, after the skipped tokens. -/
theorem mem_layoutsFrom {clean : Text} {skip : Nat} {previous : Option Token}
    {tokens : List Token} {layout : Layout}
    (h : layout ∈ layoutsFrom clean skip previous tokens) :
    ∃ before rest previous' used, tokens = before ++ layout.nameToken :: rest ∧
      skip ≤ before.length ∧
      layoutAt clean previous' layout.nameToken rest = some (layout, used) := by
  induction tokens generalizing skip previous with
  | nil => simp [layoutsFrom] at h
  | cons t ts ih =>
    cases skip with
    | succ n =>
      obtain ⟨before, rest, previous', used, rfl, hskip, hat⟩ := ih h
      exact ⟨t :: before, rest, previous', used, rfl, by simpa using hskip, hat⟩
    | zero =>
      rw [layoutsFrom] at h
      rcases hat : layoutAt clean previous t ts with _ | ⟨first, used⟩
      · rw [hat] at h
        obtain ⟨before, rest, previous', used, rfl, -, hat'⟩ := ih h
        exact ⟨t :: before, rest, previous', used, rfl, Nat.zero_le _, hat'⟩
      · rw [hat] at h
        rcases List.mem_cons.1 h with rfl | h
        · have hname := (layoutAt_eq_some hat).1
          exact ⟨[], ts, previous, used, by rw [hname]; rfl, Nat.zero_le _,
            by rw [hname]; exact hat⟩
        · obtain ⟨before, rest, previous', used, rfl, -, hat'⟩ := ih h
          exact ⟨t :: before, rest, previous', used, rfl, Nat.zero_le _, hat'⟩

theorem mem_layoutsOf {clean : Text} {tokens : List Token} {layout : Layout}
    (h : layout ∈ layoutsOf clean tokens) :
    layout ∈ layoutsFrom clean 0 none tokens := by
  unfold layoutsOf at h
  split at h
  · exact h
  · simp at h

/-! ## Order -/

/-- Tokens after the first one that starts at or past an offset
start past it. -/
theorem lt_start_of_mem_drop {tokens : List Token}
    (hord : tokens.Pairwise (·.start < ·.start)) {offset : Nat} {t : Token}
    (h : t ∈ tokens.drop ((tokens.takeWhile (·.start < offset)).length + 1)) :
    offset < t.start := by
  induction tokens with
  | nil => simp at h
  | cons u us ih =>
    obtain ⟨hu, hus⟩ := List.pairwise_cons.1 hord
    by_cases hlt : u.start < offset
    · rw [List.takeWhile_cons_of_pos (by simpa using hlt), List.length_cons,
        List.drop_succ_cons] at h
      exact ih hus h
    · rw [List.takeWhile_cons_of_neg (by simpa using hlt), List.length_nil,
        List.drop_succ_cons, List.drop_zero] at h
      have := hu t h
      omega

theorem closingFrom_ge {state : Nesting} {offset close : Nat} {text : Text}
    (h : closingFrom state offset text = some close) : offset ≤ close := by
  induction text generalizing state offset with
  | nil => simp [closingFrom] at h
  | cons c cs ih =>
    rw [closingFrom] at h
    split at h
    · cases h
      exact Nat.le_refl _
    · have := ih h
      omega

/-- The parenthesis that closes another one stands after it. -/
theorem lt_of_matchingParen {text : Text} {start close : Nat}
    (h : text.matchingParen start = some close) : start < close := by
  unfold matchingParen at h
  rcases hafter : text.after start with _ | ⟨c, cs⟩
  · simp [hafter, closingFrom] at h
  · have hevent : ¬ (Nesting.event {} c = .closed ∧
        (Nesting.step {} c).depth = 0) := by
      rintro ⟨hclosed, -⟩
      simp only [Nesting.event, Bool.false_eq_true, if_false,
        if_true] at hclosed
      split at hclosed
      · cases hclosed
      · split at hclosed <;> cases hclosed
    rw [hafter, closingFrom] at h
    simp only [hevent, if_false] at h
    have := closingFrom_ge h
    have := c.utf8Size_pos
    omega

/-- The name stands before the opening parenthesis, and that before the offset
that closes it. -/
theorem layout_start_lt {clean : Text} {skip : Nat} {previous : Option Token}
    {tokens : List Token} (hord : tokens.Pairwise (·.start < ·.start))
    {layout : Layout} (h : layout ∈ layoutsFrom clean skip previous tokens) :
    layout.nameToken.start < layout.opening.start ∧
      layout.opening.start < layout.close := by
  obtain ⟨before, rest, previous', used, rfl, -, hat⟩ := mem_layoutsFrom h
  obtain ⟨-, -, hclose, between, after, rfl, -, -⟩ := layoutAt_eq_some hat
  have htail := (List.pairwise_append.1 hord).2.1
  exact ⟨(List.pairwise_cons.1 htail).1 _ (by simp), lt_of_matchingParen hclose⟩

/-- Every definition closes before the name of a later one starts. -/
theorem layoutsFrom_ordered {clean : Text} {skip : Nat}
    {previous : Option Token} {tokens : List Token}
    (hord : tokens.Pairwise (·.start < ·.start)) :
    (layoutsFrom clean skip previous tokens).Pairwise fun a b =>
      a.close < b.nameToken.start := by
  induction tokens generalizing skip previous with
  | nil => exact List.Pairwise.nil
  | cons t ts ih =>
    obtain ⟨-, hts⟩ := List.pairwise_cons.1 hord
    cases skip with
    | succ n => exact ih hts
    | zero =>
      rw [layoutsFrom]
      rcases hat : layoutAt clean previous t ts with _ | ⟨layout, used⟩
      · exact ih hts
      · refine List.pairwise_cons.2 ⟨?_, ih hts⟩
        intro later hlater
        obtain ⟨-, -, -, between, after, hsplit, hbody, hused⟩ :=
          layoutAt_eq_some hat
        -- reading goes on behind the token that follows the body, and that one
        -- starts at the close or later
        obtain ⟨before, rest, _, _, hts', hskip, -⟩ := mem_layoutsFrom hlater
        have hmem : later.nameToken ∈ ts.drop used := by
          rw [hts', List.drop_append_of_le_length hskip]
          simp
        have hdrop : ts.drop used = after.drop (layout.body.length + 1) := by
          have hlen : used = (between ++ [layout.opening]).length
              + (layout.body.length + 1) := by
            rw [hused]
            simp only [List.length_append, List.length_singleton]
            omega
          have hfront : ts = (between ++ [layout.opening]) ++ after := by
            rw [hsplit, List.append_assoc, List.singleton_append]
          rw [hlen, ← List.drop_drop, hfront, List.drop_left]
        rw [hdrop, hbody] at hmem
        have hafter : after.Pairwise (·.start < ·.start) := by
          rw [hsplit] at hts
          exact (List.pairwise_cons.1 (List.pairwise_append.1 hts).2.1).2
        exact lt_start_of_mem_drop hafter hmem

theorem Aligned.starts_increase {text : Text} {tokens : List Token}
    (h : Aligned text tokens) : tokens.Pairwise (·.start < ·.start) := by
  refine (List.Pairwise.and_mem.1 h.ordered).imp ?_
  rintro t u ⟨ht, -, hle⟩
  exact Nat.lt_of_lt_of_le (h.range t ht).lt hle

/-- The definitions of a text stand in order and do not overlap. -/
theorem parseSubqueries_ordered (text : Text) :
    (parseSubqueries text).Pairwise fun a b => a.stop ≤ b.start := by
  have hord := (aligned_tokenize text).starts_increase
  rw [parseSubqueries_eq, subqueriesOf_eq, layoutsOf]
  split
  · exact List.pairwise_map.2 (layoutsFrom_ordered hord)
  · exact List.Pairwise.nil

/-- Every definition of a text starts before its body and stops after it. -/
theorem start_lt_stop {text : Text} {s : Subquery}
    (h : s ∈ parseSubqueries text) : s.start < s.stop := by
  have hord := (aligned_tokenize text).starts_increase
  rw [parseSubqueries_eq, subqueriesOf_eq] at h
  obtain ⟨layout, hlayout, rfl⟩ := List.mem_map.1 h
  obtain ⟨hname, hclose⟩ := layout_start_lt hord (mem_layoutsOf hlayout)
  change layout.nameToken.start < layout.close + 1
  omega

/-! ## The parentheses of a body -/

/-- The parenthesis that makes an event happen. -/
def Text.ParenEvent.mark? : ParenEvent → Option Char
  | opened => some '('
  | closed | underflow => some ')'
  | other => none

theorem Text.Nesting.event_mark {state : Nesting} {c mark : Char}
    (h : (state.event c).mark? = some mark) : c = mark := by
  unfold Nesting.event at h
  split at h
  · cases h
  · split at h
    · rename_i hc
      cases h
      exact beq_iff_eq.1 hc
    · split at h
      · rename_i hc
        split at h <;> cases h <;> exact beq_iff_eq.1 hc
      · cases h

theorem closingFrom_hasAt {state : Nesting} {front rest : Text} {close : Nat}
    (h : closingFrom state (width front) rest = some close) :
    HasAt (front ++ rest) close ')' := by
  induction rest generalizing state front with
  | nil => cases h
  | cons c cs ih =>
    have hassoc : front ++ c :: cs = (front ++ [c]) ++ cs := by simp
    have hwidth : width front + c.utf8Size = width (front ++ [c]) := by simp
    rw [closingFrom, hwidth] at h
    split at h
    · rename_i hclosed
      have hc : c = ')' := Nesting.event_mark (by rw [hclosed.1]; rfl)
      cases h
      exact ⟨front, cs, by rw [hc], rfl⟩
    · rw [hassoc]
      exact ih h

theorem matchingParen_hasAt {text : Text} {start close : Nat}
    (hstart : text.isBoundary start = true)
    (h : text.matchingParen start = some close) : HasAt text close ')' := by
  obtain ⟨a, b, rfl, rfl⟩ := isBoundary_iff.1 hstart
  rw [matchingParen, after_append_width] at h
  exact closingFrom_hasAt h

/-- A definition has its body between an opening and a closing parenthesis of
the masked text. -/
theorem layout_masked_parens {text : Text} {layout : Layout}
    (h : layout ∈ layoutsOf text.sanitize (tokenize text.sanitize)) :
    HasAt text.sanitize layout.opening.start '(' ∧
      layout.opening.stop = layout.opening.start + 1 ∧
      HasAt text.sanitize layout.close ')' := by
  obtain ⟨before, rest, _, _, htokens, -, hat⟩ :=
    mem_layoutsFrom (mem_layoutsOf h)
  obtain ⟨-, hkind, hclose, between, after, rfl, -, -⟩ := layoutAt_eq_some hat
  have hmem : layout.opening ∈ tokenize text.sanitize := by rw [htokens]; simp
  have hmark : layout.opening.kind.mark? = some '(' := by rw [hkind]; rfl
  have hopen := (hasAt_mark hmem hmark).1
  exact ⟨hopen, stop_of_mark hmem hmark,
    matchingParen_hasAt hopen.isRange.start_boundary hclose⟩

/-- The same parentheses stand in the text. -/
theorem layout_parens {text : Text} {layout : Layout}
    (h : layout ∈ layoutsOf text.sanitize (tokenize text.sanitize)) :
    HasAt text layout.opening.start '(' ∧
      layout.opening.stop = layout.opening.start + 1 ∧
      HasAt text layout.close ')' := by
  obtain ⟨hopen, hstop, hclose⟩ := layout_masked_parens h
  exact ⟨hasAt_of_maskFrom hopen (by decide), hstop,
    hasAt_of_maskFrom hclose (by decide)⟩

/-- The closing parenthesis of a definition is not masked. -/
theorem close_hasAt_sanitize {text : Text} {s : Subquery}
    (h : s ∈ parseSubqueries text) : HasAt text.sanitize s.bodyStop ')' := by
  rw [parseSubqueries_eq, subqueriesOf_eq] at h
  obtain ⟨layout, hlayout, rfl⟩ := List.mem_map.1 h
  exact (layout_masked_parens hlayout).2.2

/-- The body of a definition starts after an opening parenthesis and stops at a
closing one, inside the definition. -/
theorem body_parens {text : Text} {s : Subquery}
    (h : s ∈ parseSubqueries text) :
    HasAt text (s.bodyStart - 1) '(' ∧ HasAt text s.bodyStop ')' ∧
      s.start + 1 < s.bodyStart ∧ s.bodyStart ≤ s.bodyStop ∧
      s.stop = s.bodyStop + 1 := by
  have hord := (aligned_tokenize text).starts_increase
  rw [parseSubqueries_eq, subqueriesOf_eq] at h
  obtain ⟨layout, hlayout, rfl⟩ := List.mem_map.1 h
  obtain ⟨hopen, hstop, hclose⟩ := layout_parens hlayout
  obtain ⟨hname, hlt⟩ := layout_start_lt hord (mem_layoutsOf hlayout)
  simp only [Layout.subquery, hstop]
  exact ⟨hopen, hclose, by omega, by omega, trivial⟩

end QueryAssist
