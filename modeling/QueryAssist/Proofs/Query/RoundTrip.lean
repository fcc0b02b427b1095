import QueryAssist.Proofs.Query.Layout
import QueryAssist.Proofs.Query.WrittenSelect

/-!
# Reading written `WITH` clauses

A clause that is written as text is read as it was written: one subquery for
each definition, with its name, columns, wildcards and tables. A definition is
read at its name, up to the parenthesis that closes its body, and reading goes
on behind it.
-/

namespace QueryAssist.Written

open Text

/-! ## The parentheses of a body -/

theorem closingFrom_enclosed {inner : Text}
    (h : ∀ c ∈ inner, c ≠ '(' ∧ c ≠ ')' ∧ c ≠ '\'') (back : Text)
    (offset : Nat) :
    closingFrom { depth := 1 } offset (inner ++ ')' :: back)
      = some (offset + width inner) := by
  induction inner generalizing offset with
  | nil => rfl
  | cons c cs ih =>
    obtain ⟨hopen, hclose, hquote⟩ := h c (by simp)
    have hevent : Nesting.event { depth := 1 } c = .other := by
      simp [Nesting.event, hopen, hclose]
    have hstep : Nesting.step { depth := 1 } c = { depth := 1 } := by
      simp [Nesting.step, hquote, hevent]
    rw [List.cons_append, closingFrom, hevent, hstep]
    simp only [reduceCtorEq, false_and, if_false]
    rw [ih (fun d hd => h d (by simp [hd])), width_cons, Nat.add_assoc]

/-- Two parentheses with none and no quote between them belong together. -/
theorem matchingParen_enclosed (front : Text) {inner : Text}
    (h : ∀ c ∈ inner, c ≠ '(' ∧ c ≠ ')' ∧ c ≠ '\'') (back : Text) :
    matchingParen (front ++ '(' :: (inner ++ ')' :: back)) (width front)
      = some (width front + 1 + width inner) := by
  rw [matchingParen, after_append_width]
  exact closingFrom_enclosed h back (width front + 1)

/-- Nothing in a body opens or closes a parenthesis or a literal. -/
theorem body_enclosed (d : Definition) :
    ∀ c ∈ spell d.body, c ≠ '(' ∧ c ≠ ')' ∧ c ≠ '\'' := by
  have hinert : AllInert
      (.tight (kw .SELECT) :: d.selectList ++ listed Path.lexemes d.tables) :=
    (AllInert.cons (inert_kw .SELECT nofun) (AllInert.selectList d)).append
      (AllInert.listed AllInert.path d.tables)
  have hparens : ∀ l ∈ d.body, l.symbol.isParen = false := by
    intro l hl
    have hcases : l ∈ .tight (kw .SELECT) :: d.selectList
          ++ listed Path.lexemes d.tables ∨
        l = .apart (kw .FROM) := by
      simp only [Definition.body, List.mem_cons, List.mem_append] at hl ⊢
      grind
    rcases hcases with hin | rfl
    · have ht := hinert l hin 0
      cases hsymbol : l.symbol with
      | leftParen => exact absurd (by rw [hsymbol]; rfl) ht.not_leftParen
      | rightParen => exact absurd (by rw [hsymbol]; rfl) ht.not_rightParen
      | word => rfl
      | comma => rfl
      | dot => rfl
      | star => rfl
    · rfl
  intro c hc
  obtain ⟨hopen, hclose⟩ := not_paren_of_mem_spell hparens hc
  refine ⟨hopen, hclose, ?_⟩
  rintro rfl
  exact absurd (isPlain_of_mem_spell hc) (by decide)

/-! ## Definitions -/

theorem readBodyOpening_hint (hint : Hint) (start offset : Nat)
    {opening : Token} (hopening : opening.kind = .leftParen)
    (rest : List Token) :
    readBodyOpening ((kw .AS).token start
        :: (locate offset hint.lexemes ++ opening :: rest))
      = some (opening, rest) := by
  have has : ((kw .AS).token start).isKeyword "AS" = true :=
    kw_isKeyword .AS start
  have hnot : ∀ start, ((kw .NOT).token start).isKeyword "NOT" = true :=
    kw_isKeyword .NOT
  have hmaterialized : ∀ start,
      ((kw .MATERIALIZED).token start).isKeyword "MATERIALIZED" = true :=
    kw_isKeyword .MATERIALIZED
  have hother : ∀ start,
      ((kw .MATERIALIZED).token start).isKeyword "NOT" = false := fun start =>
    (kw_isOneOf ..).trans (by decide)
  have hparen : ∀ word, opening.isKeyword word = false := by
    intro word
    simp [Token.isKeyword, Token.isOneOf, hopening]
  cases hint <;>
    simp [readBodyOpening, Hint.lexemes, dropKeyword, has, hnot, hmaterialized,
      hother, hparen, hopening]

/-- Tokens of a body are all that start before its end. -/
theorem takeWhile_body (d : Definition) {opening closing : Token}
    (hbody : opening.stop + width (spell d.body) = closing.start)
    (later : List Token) :
    (locate opening.stop d.body ++ closing :: later).takeWhile
        (·.start < closing.start)
      = locate opening.stop d.body := by
  rw [List.takeWhile_append_of_pos, List.takeWhile_cons_of_neg (by simp),
    List.append_nil]
  intro t ht
  obtain ⟨l, -, start, rfl, hstart⟩ := mem_locate ht
  rw [hbody] at hstart
  exact decide_eq_true hstart

/-- What is read of a definition besides its place: name, columns, wildcards
and tables. -/
def content (s : Subquery) :
    String × List OutputColumn × List Wildcard × List String :=
  (s.name, s.columns, s.wildcards, s.fromTables)

/-- What is written in a definition. -/
def Definition.content (d : Definition) :
    String × List OutputColumn × List Wildcard × List String :=
  (upper d.name.text, d.projection.columns, d.projection.wildcards,
    d.tables.toList.map fun p => upper p.text)

/-- The tokens of a definition: the name, what leads to the opening parenthesis,
the body and the closing parenthesis. The two parentheses belong together in the
text, and the body puts out the projection. -/
theorem locate_definition {text front back : Text} (d : Definition)
    (h : text = front ++ (spell d.lexemes ++ back)) :
    ∃ start start' offset opening closing,
      locate (width front) d.lexemes
          = d.name.symbol.token start :: (kw .AS).token start'
            :: (locate offset d.hint.lexemes
              ++ opening :: (locate opening.stop d.body ++ [closing])) ∧
        opening.kind = .leftParen ∧ closing.kind = .rightParen ∧
        opening.stop + width (spell d.body) = closing.start ∧
        text.matchingParen opening.start = some closing.start ∧
        projectionOf text (locate opening.stop d.body) = d.projection := by
  -- The text up to the opening parenthesis; inside stands the body.
  generalize hfront : front
      ++ (spell (.apart d.name.symbol :: .apart (kw .AS) :: d.hint.lexemes)
        ++ [' '])
    = outside
  have htext : text = outside ++ '(' :: (spell d.body ++ ')' :: back) := by
    rw [h, ← hfront]
    simp [Definition.lexemes, Symbol.chars]
  have hinside : text
      = (outside ++ ['(']) ++ (spell d.body ++ (')' :: back)) := by
    rw [htext]
    simp
  have hwidth : width (outside ++ ['(']) = width outside + 1 := by
    rw [width_append]
    rfl
  have hopen : width front + 1 + width d.name.symbol.chars + 1
        + width (kw .AS).chars + width (spell d.hint.lexemes) + 1
      = width outside := by
    have hspace : (' ').utf8Size = 1 := rfl
    rw [← hfront]
    simp only [spell_apart, width_append, width_cons, width_nil,
      List.cons_append]
    omega
  have hclose := matchingParen_enclosed outside (body_enclosed d) back
  have hprojection := projectionOf_body d hinside
  rw [← htext] at hclose
  rw [hwidth] at hprojection
  refine ⟨width front + 1, width front + 1 + width d.name.symbol.chars + 1,
    width front + 1 + width d.name.symbol.chars + 1 + width (kw .AS).chars,
    Symbol.leftParen.token (width outside),
    Symbol.rightParen.token (width outside + 1 + width (spell d.body)), ?_, rfl,
    rfl, rfl, hclose, hprojection⟩
  rw [Definition.lexemes, locate_apart, locate_apart, locate_append,
    locate_apart, hopen, locate_append]
  rfl

/-- A definition is read at its name, and all its tokens are taken. -/
theorem definitionAt_locate {text front back : Text} (d : Definition)
    {previous : Token} (hprevious : previous.introducesDefinition = true)
    (h : text = front ++ (spell d.lexemes ++ back)) :
    ∃ name taken, locate (width front) d.lexemes = name :: taken ∧
      ∀ later, ∃ s,
        definitionAt text text (some previous) name (taken ++ later)
            = some (s, taken.length) ∧
          content s = d.content := by
  obtain ⟨start, start', offset, opening, closing, htokens, hopening, -, hbody,
    hclose, hprojection⟩ :=
    locate_definition d h
  refine ⟨_, _, htokens, ?_⟩
  intro later
  have hrest : (kw .AS).token start'
          :: (locate offset d.hint.lexemes
            ++ opening :: (locate opening.stop d.body ++ [closing])) ++ later
      = (kw .AS).token start'
        :: (locate offset d.hint.lexemes
          ++ opening :: (locate opening.stop d.body ++ closing :: later)) := by
    simp
  have hcolumns : readColumnList
        ((kw .AS).token start'
          :: (locate offset d.hint.lexemes
            ++ opening :: (locate opening.stop d.body ++ closing :: later)))
      = some (none,
        (kw .AS).token start'
          :: (locate offset d.hint.lexemes
            ++ opening :: (locate opening.stop d.body ++ closing :: later))) :=
    rfl
  rw [hrest, definitionAt, d.name.token_isIdentifier, Option.any_some,
    hprevious, Bool.and_self, if_pos rfl, hcolumns]
  simp only [Option.bind_eq_bind, Option.bind_some,
    readBodyOpening_hint d.hint start' offset hopening, hclose,
    takeWhile_body d hbody, hprojection, declareColumns]
  refine ⟨_, congrArg some (Prod.ext rfl ?_), ?_⟩
  · simp only [List.length_cons, List.length_append, List.length_nil]
    omega
  · simp only [content, Definition.content, tableRefs_body, Token.upper,
      d.name.token_name]

/-! ## Clauses -/

/-- No definition starts at a token that is no identifier. -/
theorem definitionsFrom_other {t : Token} (ht : t.isIdentifier = false)
    (text clean : Text) (previous : Option Token) (later : List Token) :
    definitionsFrom text clean 0 previous (t :: later)
      = definitionsFrom text clean 0 (some t) later := by
  have hnone : definitionAt text clean previous t later = none := by
    rw [definitionAt, ht, Bool.false_and, if_neg Bool.false_ne_true]
  rw [definitionsFrom, hnone]

/-- The definitions of a clause are read one after the other. -/
theorem definitionsFrom_listed {text front back : Text} (first : Definition)
    (more : List Definition) {previous : Token}
    (hprevious : previous.introducesDefinition = true)
    (h :
      text = front ++ (spell (listed Definition.lexemes ⟨first, more⟩) ++ back))
    (later : List Token)
    (hlater : ∀ previous, definitionsFrom text text 0 previous later = []) :
    (definitionsFrom text text 0 (some previous)
        (locate (width front) (listed Definition.lexemes ⟨first, more⟩)
          ++ later)).map content
      = (first :: more).map Definition.content := by
  induction more generalizing first front previous with
  | nil =>
    rw [listed_single] at h ⊢
    obtain ⟨name, taken, htokens, hread⟩ :=
      definitionAt_locate first hprevious h
    obtain ⟨s, hs, hcontent⟩ := hread later
    have hskip := definitionsFrom_skip text text (some name) taken later
    rw [htokens, List.cons_append, definitionsFrom, hs]
    simp only [hskip, hlater, List.map_cons, List.map_nil, hcontent]
  | cons x more ih =>
    obtain ⟨hfirst, hmore, hoffset⟩ := spell_listed_cons h
    -- Reading skips the first definition, passes over the comma and finds the
    -- next name behind it.
    generalize hcomma :
      Symbol.comma.token (width front + width (spell first.lexemes)) = comma
    have hintroduces : comma.introducesDefinition = true := by
      rw [← hcomma]; rfl
    have hother : comma.isIdentifier = false := by rw [← hcomma]; rfl
    have hrest := ih x hintroduces hmore
    rw [hoffset] at hrest
    obtain ⟨name, taken, htokens, hread⟩ :=
      definitionAt_locate first hprevious hfirst
    obtain ⟨s, hs, hcontent⟩ :=
      hread (comma
        :: (locate (width front + width (spell first.lexemes) + 1)
            (listed Definition.lexemes ⟨x, more⟩) ++ later))
    have hskip :=
      definitionsFrom_skip text text (some name) taken
        (comma
          :: (locate (width front + width (spell first.lexemes) + 1)
              (listed Definition.lexemes ⟨x, more⟩) ++ later))
    have htokens' : locate (width front)
            (listed Definition.lexemes ⟨first, x :: more⟩) ++ later
        = name :: (taken ++ comma
            :: (locate (width front + width (spell first.lexemes) + 1)
                (listed Definition.lexemes ⟨x, more⟩) ++ later)) := by
      rw [listed_cons, locate_append, htokens, locate_tight, hcomma]
      simp [Symbol.chars]
      rfl
    rw [htokens', definitionsFrom, hs]
    simp only [hskip, definitionsFrom_other hother, List.map_cons, hrest,
      hcontent]

/-- The tokens of a written clause, and those of the query behind it, which are
no identifiers. -/
theorem tokenize_clause (clause : Clause) :
    ∃ later,
      tokenize clause.text.toList
          = (kw .WITH).token 0 :: (locate 4 clause.lexemes ++ later) ∧
        ∀ t ∈ later, t.isIdentifier = false := by
  have hreads := reads_clause clause
  have hselect := Reads.apart (kw .SELECT)
  have hone : Opens " 1".toList := opens_cons (by decide)
  have htext : clause.text.toList
      = (kw .WITH).chars
        ++ (spell clause.lexemes
          ++ (spell [.apart (kw .SELECT)] ++ " 1".toList)) :=
    text_eq_spell clause
  rw [htext, tokenize,
    tokensFrom_symbol _ (hreads.opens _ (hselect.opens _ hone)),
    hreads.tokens _ (hselect.opens _ hone), hselect.tokens _ hone]
  refine ⟨_, rfl, ?_⟩
  intro t ht
  rcases List.mem_append.1 ht with hin | hin
  · rw [List.mem_singleton.1 hin]
    exact kw_isIdentifier ..
  · rw [List.mem_singleton.1 hin]
    rfl

/-- Nothing is masked in a written clause. -/
theorem sanitize_clause (clause : Clause) :
    sanitize clause.text.toList = clause.text.toList := by
  refine sanitize_of_isPlain ?_
  intro c hc
  rw [text_eq_spell] at hc
  rcases List.mem_append.1 hc with hin | hin
  · exact (char_of_symbol hin).2.1
  · rcases List.mem_append.1 hin with hin | hin
    · exact isPlain_of_mem_spell hin
    · have hall : " SELECT 1".toList.all isPlain = true := by decide
      exact List.all_eq_true.1 hall c hin

theorem definitionsFrom_clause (clause : Clause) {later : List Token}
    (hlater : ∀ t ∈ later, t.isIdentifier = false) :
    (definitionsFrom clause.text.toList clause.text.toList 0
        (some ((kw .WITH).token 0)) (locate 4 clause.lexemes ++ later)).map
        content
      = clause.definitions.toList.map Definition.content := by
  have hnone : ∀ previous,
      definitionsFrom clause.text.toList clause.text.toList 0 previous later
        = [] := by
    intro previous
    induction later generalizing previous with
    | nil => rfl
    | cons t ts ih =>
      rw [definitionsFrom_other (hlater t (by simp))]
      exact ih (fun u hu => hlater u (by simp [hu])) (some t)
  have htext := text_eq_spell clause
  have hwith : ((kw .WITH).token 0).introducesDefinition = true := by decide
  obtain ⟨recursive, first, more⟩ := clause
  cases recursive with
  | false => exact definitionsFrom_listed first more hwith htext later hnone
  | true =>
    have hfront : (Clause.text ⟨true, first, more⟩).toList
        = "WITH RECURSIVE".toList
          ++ (spell (listed Definition.lexemes ⟨first, more⟩)
            ++ " SELECT 1".toList) := by
      rw [htext]
      simp [Clause.lexemes, kw, GrammarWord.text, Symbol.chars]
    have hrecursive : ((kw .RECURSIVE).token 5).introducesDefinition
        = true := by decide
    have hother : ((kw .RECURSIVE).token 5).isIdentifier = false :=
      kw_isIdentifier ..
    have htokens : locate 4 (Clause.lexemes ⟨true, first, more⟩)
        = (kw .RECURSIVE).token 5
          :: locate 14 (listed Definition.lexemes ⟨first, more⟩) := rfl
    rw [htokens, List.cons_append, definitionsFrom_other hother]
    exact definitionsFrom_listed first more hrecursive hfront later hnone

/-- A written clause is read as it was written: one subquery for each
definition, in order, with the name in upper case, the columns and the wildcards
of the items in order, and the paths of the tables in upper case. -/
theorem parseSubqueries_written (clause : Clause) :
    (parseSubqueries clause.text.toList).map
        (fun s => (s.name, s.columns, s.wildcards, s.fromTables))
      = clause.definitions.toList.map fun d =>
        (upper d.name.text, d.items.toList.filterMap Item.column?,
          d.items.toList.filterMap Item.wildcard?,
          d.tables.toList.map fun p => upper p.text) := by
  obtain ⟨later, htokens, hlater⟩ := tokenize_clause clause
  have hwith : ((kw .WITH).token 0).isKeyword "WITH" = true := kw_isKeyword ..
  have hother : ((kw .WITH).token 0).isIdentifier = false := kw_isIdentifier ..
  have hread : parseSubqueries clause.text.toList
      = definitionsFrom clause.text.toList clause.text.toList 0
        (some ((kw .WITH).token 0)) (locate 4 clause.lexemes ++ later) := by
    rw [parseSubqueries_eq, sanitize_clause, htokens, subqueriesOf,
      List.any_cons, hwith, Bool.true_or, if_pos rfl,
      definitionsFrom_other hother]
  rw [hread]
  exact definitionsFrom_clause clause hlater

example :
    (parseSubqueries
        "WITH n AS (SELECT *, t.c AS a FROM s.t) SELECT 1".toList).map
        (fun s => (s.name, s.columns, s.wildcards, s.fromTables))
      = [("N",
        [{ name := "a", expression := some "t.c", sourceTable := some "t",
           sourceColumn := some "c" }], [.all], ["S.T"])] := by
  decide +kernel

end QueryAssist.Written
