import QueryAssist.Proofs.Query.Written

/-!
# Reading written select lists

Every reader of a body is followed through the tokens of the lexemes it reads: a
dotted path, an item, the select list and the list of tables are read as they
were written. The text itself matters only where the expression of a renamed
column is cut out of it.
-/

namespace QueryAssist.Written

open Text

/-! ## Tokens of words -/

section

variable (word : GrammarWord) (start : Nat)

@[simp]
theorem kw_kind : ((kw word).token start).kind = .word := rfl

theorem kw_isOneOf (words : List String) :
    ((kw word).token start).isOneOf words = Keyword.isOneOf words word.text :=
  Symbol.token_word_isOneOf ⟨word.text, word.isWord⟩ start words

/-- A keyword is the keyword it is. -/
theorem kw_isKeyword : ((kw word).token start).isKeyword word.text = true := by
  rw [Token.isKeyword, kw_isOneOf]
  cases word <;> decide

/-- A keyword is no identifier. -/
theorem kw_isIdentifier : ((kw word).token start).isIdentifier = false := by
  have hreserved : Keyword.isReserved word.text = true := by
    cases word <;> decide
  have htext : ((kw word).token start).text = word.text :=
    Symbol.token_word_text ⟨word.text, word.isWord⟩ start
  rw [Token.isIdentifier, htext, hreserved]
  rfl

end

namespace Identifier

variable (i : Identifier) (start : Nat)

@[simp]
theorem token_kind : (i.symbol.token start).kind = .word := rfl

@[simp]
theorem token_name : (i.symbol.token start).name = i.text :=
  Symbol.token_word_name i.toWord start

@[simp]
theorem token_isName : (i.symbol.token start).isName = true := rfl

@[simp]
theorem token_isIdentifier : (i.symbol.token start).isIdentifier = true := by
  have htext : (i.symbol.token start).text = i.text :=
    Symbol.token_word_text i.toWord start
  rw [Token.isIdentifier, htext, i.not_reserved]
  rfl

/-- An identifier is none of the reserved words. -/
theorem token_isOneOf {words : List String}
    (h : ∀ word ∈ words, word ∈ Keyword.reserved) :
    (i.symbol.token start).isOneOf words = false := by
  have hfree := i.not_reserved
  rw [Identifier.symbol, Symbol.token_word_isOneOf]
  simp only [Keyword.isReserved, Keyword.isOneOf, List.contains_eq_mem,
    decide_eq_false_iff_not] at hfree ⊢
  exact fun hin => hfree (h _ hin)

end Identifier

/-! ## Inert tokens -/

/-- Neither a parenthesis nor a word that ends a select list or
starts a join. -/
structure Inert (t : Token) : Prop where
  not_leftParen : t.kind ≠ .leftParen
  not_rightParen : t.kind ≠ .rightParen
  not_clause : t.isOneOf Keyword.afterProjection = false
  not_from : t.isKeyword "FROM" = false
  not_join : t.isKeyword "JOIN" = false

/-- Lexemes all of whose tokens are inert. -/
def AllInert (lexemes : List Lexeme) : Prop :=
  ∀ l ∈ lexemes, ∀ start, Inert (l.symbol.token start)

theorem inert_identifier (i : Identifier) (start : Nat) :
    Inert (i.symbol.token start) where
  not_leftParen := nofun
  not_rightParen := nofun
  not_clause := i.token_isOneOf start (by decide)
  not_from := i.token_isOneOf start (by decide)
  not_join := i.token_isOneOf start (by decide)

/-- Of the keywords only `FROM` is not inert. -/
theorem inert_kw (word : GrammarWord) (h : word ≠ .FROM) (start : Nat) :
    Inert ((kw word).token start) := by
  have hwords : ∀ words ∈ [Keyword.afterProjection, ["FROM"], ["JOIN"]],
      ((kw word).token start).isOneOf words = false := by
    intro words hin
    rw [kw_isOneOf]
    cases word with
    | FROM => exact absurd rfl h
    | _ => revert words; decide
  exact ⟨nofun, nofun, hwords _ (by simp), hwords _ (by simp),
    hwords _ (by simp)⟩

theorem inert_comma (start : Nat) : Inert (Symbol.comma.token start) :=
  ⟨nofun, nofun, rfl, rfl, rfl⟩

theorem inert_dot (start : Nat) : Inert (Symbol.dot.token start) :=
  ⟨nofun, nofun, rfl, rfl, rfl⟩

theorem inert_star (start : Nat) : Inert (Symbol.star.token start) :=
  ⟨nofun, nofun, rfl, rfl, rfl⟩

namespace AllInert

theorem append {a b : List Lexeme} (ha : AllInert a)
    (hb : AllInert b) : AllInert (a ++ b) := by
  intro l hl
  rcases List.mem_append.1 hl with hin | hin
  · exact ha l hin
  · exact hb l hin

theorem cons {l : Lexeme} {ls : List Lexeme}
    (hl : ∀ start, Inert (l.symbol.token start))
    (hls : AllInert ls) : AllInert (l :: ls) := by
  intro m hm
  rcases List.mem_cons.1 hm with rfl | hin
  · exact hl
  · exact hls m hin

theorem nil : AllInert [] := nofun

theorem flatMap {α : Type} {f : α → List Lexeme} {as : List α}
    (h : ∀ a, AllInert (f a)) : AllInert (as.flatMap f) := by
  intro l hl
  obtain ⟨a, -, hin⟩ := List.mem_flatMap.1 hl
  exact h a l hin

theorem tokens {lexemes : List Lexeme} (h : AllInert lexemes) (offset : Nat) :
    ∀ t ∈ locate offset lexemes, Inert t := by
  intro t ht
  obtain ⟨l, hl, start, rfl, -⟩ := mem_locate ht
  exact h l hl start

theorem path (p : Path) : AllInert p.lexemes :=
  cons (inert_identifier p.first)
    (flatMap fun i => cons inert_dot (cons (inert_identifier i) nil))

theorem item (item : Item) : AllInert item.lexemes := by
  cases item with
  | all => exact cons inert_star nil
  | allOf q => exact (path q).append (cons inert_dot (cons inert_star nil))
  | column r => exact path r.path
  | renamed r name =>
    exact (path r.path).append
      (cons (inert_kw .AS nofun) (cons (inert_identifier name) nil))

theorem listed {α : Type} {lexemes : α → List Lexeme}
    (h : ∀ x, AllInert (lexemes x)) (xs : OneOrMore α) :
    AllInert (listed lexemes xs) :=
  (h xs.first).append (flatMap fun x => cons inert_comma (h x))

theorem selectList (d : Definition) : AllInert d.selectList := by
  refine append ?_ (listed item d.items)
  split
  · exact cons (inert_kw .DISTINCT nofun) nil
  · exact nil

end AllInert

/-! ## Paths -/

theorem locate_dotted_cons (i : Identifier) (more : List Identifier)
    (offset : Nat) :
    locate offset (dotted (i :: more))
      = Symbol.dot.token offset :: i.symbol.token (offset + 1)
        :: locate (offset + 1 + width i.symbol.chars) (dotted more) := rfl

theorem pathNames_locate (i : Identifier) (more : List Identifier)
    (start offset : Nat) :
    pathNames (i.symbol.token start :: locate offset (dotted more))
      = some ((i :: more).map (·.text)) := by
  induction more generalizing i start offset with
  | nil => simp [dotted, pathNames]
  | cons j more ih =>
    rw [locate_dotted_cons, pathNames, ih]
    simp [Symbol.kind]

theorem dottedPath_locate (p : Path) (offset : Nat) :
    dottedPath (locate offset p.lexemes) = some p.text := by
  rw [dottedPath, Path.lexemes, locate_apart, pathNames_locate]
  rfl

/-! ## Items -/

/-- The tokens of lexemes, last first, as far as the last two. -/
theorem reverse_locate (lexemes : List Lexeme) (before last : Lexeme)
    (offset : Nat) :
    ∃ start start',
      (locate offset (lexemes ++ [before, last])).reverse
        = last.symbol.token start :: before.symbol.token start'
          :: (locate offset lexemes).reverse := by
  rw [locate_append, List.reverse_append]
  exact ⟨_, _, rfl⟩

theorem wildcardOf_qualified (q : Path) (offset : Nat) :
    wildcardOf (locate offset (q.lexemes ++ [.tight .dot, .tight .star]))
      = some (.qualified (upper q.text)) := by
  obtain ⟨start, start', hreverse⟩ :=
    reverse_locate q.lexemes (.tight .dot) (.tight .star) offset
  rw [wildcardOf, hreverse]
  simp [Lexeme.tight, Symbol.kind, dottedPath_locate]

/-- No wildcard ends with an identifier. -/
theorem wildcardOf_identifier {tokens : List Token} {i : Identifier}
    {start : Nat} {earlier : List Token}
    (h : tokens.reverse = i.symbol.token start :: earlier) :
    wildcardOf tokens = none := by
  rw [wildcardOf, h]
  rfl

/-- A reference ends with its column; before that stands nothing, or a dot and
the qualifier. -/
theorem reverse_locate_reference (r : Reference) (offset : Nat) :
    ∃ start,
      (r.qualifier = none ∧
          (locate offset r.path.lexemes).reverse
            = [r.column.symbol.token start]) ∨
        ∃ q start', r.qualifier = some q ∧
          (locate offset r.path.lexemes).reverse
            = r.column.symbol.token start :: Symbol.dot.token start'
              :: (locate offset q.lexemes).reverse := by
  unfold Reference.path
  rcases r.qualifier with _ | q
  · exact ⟨offset + 1, Or.inl ⟨rfl, rfl⟩⟩
  · obtain ⟨start, start', hreverse⟩ :=
      reverse_locate q.lexemes (.tight .dot) (.tight r.column.symbol) offset
    dsimp only
    rw [path_lexemes_qualified]
    exact ⟨start, Or.inr ⟨q, start', rfl, hreverse⟩⟩

theorem columnOf_reference (text : Text) (r : Reference) (offset : Nat) :
    columnOf text (locate offset r.path.lexemes) = (Item.column r).column? := by
  obtain ⟨start, ⟨hnone, hreverse⟩ | ⟨q, start', hsome, hreverse⟩⟩ :=
    reverse_locate_reference r offset
  · rw [columnOf, hreverse]
    simp [Item.column?, hnone]
  · rw [columnOf, hreverse]
    simp [Item.column?, hsome, Token.isKeyword, Token.isOneOf, Symbol.kind,
      dottedPath_locate]

/-! ## Renamed columns -/

theorem trim_of_isBlank {cs : Text}
    (h : ∀ c ∈ cs, isBlank c = false) : trim cs = cs := by
  have hstart : ∀ ds : Text,
      (∀ c ∈ ds, isBlank c = false) → trimStart ds = ds := by
    intro ds hds
    cases ds with
    | nil => rfl
    | cons d ds => exact List.dropWhile_cons_of_neg (by simp [hds d (by simp)])
  rw [trim, hstart cs h, hstart cs.reverse (by simpa using h),
    List.reverse_reverse]

/-- The last token stops where the text of the lexemes does. -/
theorem getLast?_locate {lexemes : List Lexeme} (h : lexemes ≠ [])
    (offset : Nat) :
    (locate offset lexemes).getLast?.map Token.stop
      = some (offset + width (spell lexemes)) := by
  rcases List.eq_nil_or_concat lexemes with rfl | ⟨init, l, rfl⟩
  · exact absurd rfl h
  · simp [locate_append, locate, Symbol.token, spell_cons, Nat.add_assoc]

/-- The bytes from the first to the last token of a path are its text. -/
theorem slice_path {text front back : Text} (p : Path)
    (h : text = front ++ (spell p.lexemes ++ back)) :
    text.slice (((locate (width front) p.lexemes).head?.map Token.start).getD 0)
        (((locate (width front) p.lexemes).getLast?.map Token.stop).getD 0)
      = p.text.toList := by
  have hparts : text = (front ++ [' ']) ++ (p.text.toList ++ back) := by
    rw [h, spell_path]
    simp
  have hstart : ((locate (width front) p.lexemes).head?.map Token.start).getD 0
      = width (front ++ [' ']) := by
    rw [width_append]
    rfl
  have hstop : ((locate (width front) p.lexemes).getLast?.map Token.stop).getD 0
      = width (front ++ [' ']) + width p.text.toList := by
    have hne : p.lexemes ≠ [] := List.cons_ne_nil _ _
    rw [getLast?_locate hne, spell_path, width_append, width_cons, width_cons,
      width_nil, Option.getD_some]
    omega
  rw [hstart, hstop, hparts, slice_parts]

theorem isBlank_of_mem_path {p : Path} {c : Char}
    (h : c ∈ p.text.toList) : isBlank c = false := by
  rw [← spell_dotted] at h
  have hspell : c ∈ spell (.tight p.first.symbol :: dotted p.more) := h
  refine isBlank_of_mem_spell ?_ hspell
  intro l hl
  rcases List.mem_cons.1 hl with rfl | hin
  · rfl
  · obtain ⟨i, -, hi⟩ := List.mem_flatMap.1 hin
    rcases List.mem_cons.1 hi with rfl | hi
    · rfl
    · rw [List.mem_singleton.1 hi]
      rfl

theorem text_path (r : Reference) : r.path.text = r.text := by
  have h := (spell_path r.path).symm.trans (spell_reference r)
  exact String.toList_inj.1 (List.cons.inj h).2

theorem aliased_reference {text front back : Text} (r : Reference)
    (name : Identifier) (start : Nat)
    (h : text = front ++ (spell r.path.lexemes ++ back)) :
    some (aliased text (name.symbol.token start)
        (locate (width front) r.path.lexemes))
      = (Item.renamed r name).column? := by
  have hexpression : String.ofList
        (trim (text.slice
          (((locate (width front) r.path.lexemes).head?.map Token.start).getD 0)
          (((locate (width front) r.path.lexemes).getLast?.map Token.stop).getD
            0))) = r.text := by
    rw [slice_path r.path h, trim_of_isBlank fun c hc => isBlank_of_mem_path hc,
      String.ofList_toList, text_path]
  obtain ⟨last, ⟨hnone, hreverse⟩ | ⟨q, dot, hsome, hreverse⟩⟩ :=
    reverse_locate_reference r (width front)
  · rw [aliased, hexpression, hreverse]
    simp [Item.column?, hnone]
  · rw [aliased, hexpression, hreverse]
    simp [Item.column?, hsome, Symbol.kind, dottedPath_locate]

theorem columnOf_renamed {text front back : Text} (r : Reference)
    (name : Identifier) (h : text = front ++ (spell r.path.lexemes ++ back)) :
    columnOf text
        (locate (width front)
          (r.path.lexemes ++ [.apart (kw .AS), .apart name.symbol]))
      = (Item.renamed r name).column? := by
  obtain ⟨start, start', hreverse⟩ :=
    reverse_locate r.path.lexemes (.apart (kw .AS)) (.apart name.symbol)
      (width front)
  have has : ((kw .AS).token start').isKeyword "AS" = true :=
    kw_isKeyword .AS start'
  have hne : (locate (width front) r.path.lexemes).reverse.isEmpty = false := by
    simp [Path.lexemes]
  rw [← aliased_reference r name start h, columnOf, hreverse]
  simp [Lexeme.apart, has, hne]

/-! ## Select lists -/

theorem untilClause_inert {tokens rest : List Token}
    (h : ∀ t ∈ tokens, Inert t) :
    untilClause 0 (tokens ++ rest) = tokens ++ untilClause 0 rest := by
  induction tokens with
  | nil => rfl
  | cons t ts ih =>
    have ht := h t (by simp)
    have hts := ih fun u hu => h u (by simp [hu])
    rw [List.cons_append, untilClause]
    split
    · rename_i hkind
      exact absurd hkind ht.not_leftParen
    · rename_i hkind
      exact absurd hkind ht.not_rightParen
    · rw [if_neg (by simp [ht.not_clause]), hts, List.cons_append]

/-- Tokens that are no commas go to the front of the first group. -/
theorem splitCommas_inert {tokens rest : List Token}
    (h : ∀ t ∈ tokens, Inert t ∧ t.kind ≠ .comma) :
    splitCommas 0 (tokens ++ rest)
      = tokens.foldr consGroup (splitCommas 0 rest) := by
  induction tokens with
  | nil => rfl
  | cons t ts ih =>
    obtain ⟨ht, hkind⟩ := h t (by simp)
    rw [List.cons_append, splitCommas]
    split
    · rename_i hparen
      exact absurd hparen ht.not_leftParen
    · rename_i hparen
      exact absurd hparen ht.not_rightParen
    · rename_i hcomma
      exact absurd hcomma hkind
    · rw [ih fun u hu => h u (by simp [hu])]
      rfl

theorem foldr_consGroup (tokens group : List Token)
    (groups : List (List Token)) :
    tokens.foldr consGroup (group :: groups) = (tokens ++ group) :: groups := by
  induction tokens with
  | nil => rfl
  | cons t ts ih =>
    rw [List.foldr_cons, ih]
    rfl

/-- No comma stands in an item. -/
theorem item_not_comma (item : Item) (offset : Nat) :
    ∀ t ∈ locate offset item.lexemes, Inert t ∧ t.kind ≠ .comma := by
  have hpath : ∀ p : Path, ∀ l ∈ p.lexemes, l.symbol.kind ≠ .comma := by
    intro p l hl
    rcases List.mem_cons.1 hl with rfl | hin
    · nofun
    · obtain ⟨i, -, hi⟩ := List.mem_flatMap.1 hin
      rcases List.mem_cons.1 hi with rfl | hi
      · nofun
      · rw [List.mem_singleton.1 hi]
        nofun
  have hitem : ∀ l ∈ item.lexemes, l.symbol.kind ≠ .comma := by
    intro l hl
    cases item with
    | all =>
      rw [List.mem_singleton.1 hl]
      nofun
    | allOf q =>
      rcases List.mem_append.1 hl with hin | hin
      · exact hpath q l hin
      · rcases List.mem_cons.1 hin with rfl | hin
        · nofun
        · rw [List.mem_singleton.1 hin]
          nofun
    | column r => exact hpath r.path l hl
    | renamed r name =>
      rcases List.mem_append.1 hl with hin | hin
      · exact hpath r.path l hin
      · rcases List.mem_cons.1 hin with rfl | hin
        · nofun
        · rw [List.mem_singleton.1 hin]
          nofun
  intro t ht
  refine ⟨(AllInert.item item).tokens offset t ht, ?_⟩
  obtain ⟨l, hl, start, rfl, -⟩ := mem_locate ht
  exact hitem l hl

/-- The lexemes of a list with more than one entry. -/
theorem listed_cons {α : Type} (lexemes : α → List Lexeme) (first x : α)
    (more : List α) :
    listed lexemes ⟨first, x :: more⟩
      = lexemes first ++ .tight .comma :: listed lexemes ⟨x, more⟩ := by
  simp [listed]

/-- The text of a list with more than one entry, cut behind the first entry and
behind the comma that follows it. -/
theorem spell_listed_cons {α : Type} {lexemes : α → List Lexeme} {first x : α}
    {more : List α} {text front back : Text}
    (h : text = front ++ (spell (listed lexemes ⟨first, x :: more⟩) ++ back)) :
    text = front
        ++ (spell (lexemes first)
          ++ (',' :: spell (listed lexemes ⟨x, more⟩) ++ back)) ∧
      text = (front ++ spell (lexemes first) ++ [','])
        ++ (spell (listed lexemes ⟨x, more⟩) ++ back) ∧
      width (front ++ spell (lexemes first) ++ [','])
        = width front + width (spell (lexemes first)) + 1 := by
  have hfirst : text = front
      ++ (spell (lexemes first)
        ++ (',' :: spell (listed lexemes ⟨x, more⟩) ++ back)) := by
    rw [h, listed_cons, spell_append, List.append_assoc]
    rfl
  refine ⟨hfirst, ?_, ?_⟩
  · rw [hfirst]
    simp
  · rw [width_append, width_append]
    rfl

theorem listed_single {α : Type} (lexemes : α → List Lexeme) (first : α) :
    listed lexemes ⟨first, []⟩ = lexemes first := by
  simp [listed]

/-- The first item is the first group; the others make up the
groups behind it. -/
theorem splitCommas_items (first x : Item) (more : List Item) (offset : Nat) :
    splitCommas 0 (locate offset (listed Item.lexemes ⟨first, x :: more⟩))
      = locate offset first.lexemes
        :: splitCommas 0
          (locate (offset + width (spell first.lexemes) + 1)
            (listed Item.lexemes ⟨x, more⟩)) := by
  rw [listed_cons, locate_append,
    splitCommas_inert (item_not_comma first offset), locate_tight, splitCommas]
  exact (foldr_consGroup _ _ _).trans (by rw [List.append_nil]; rfl)

theorem splitCommas_item (first : Item) (offset : Nat) :
    splitCommas 0 (locate offset (listed Item.lexemes ⟨first, []⟩))
      = [locate offset first.lexemes] := by
  rw [listed_single, ← List.append_nil (locate offset first.lexemes),
    splitCommas_inert (item_not_comma first offset)]
  exact foldr_consGroup _ _ _

theorem splitCommas_head (items : OneOrMore Item) (offset : Nat) :
    ∃ groups, splitCommas 0 (locate offset (listed Item.lexemes items))
      = locate offset items.first.lexemes :: groups := by
  obtain ⟨first, more⟩ := items
  cases more with
  | nil => exact ⟨_, splitCommas_item first offset⟩
  | cons x more => exact ⟨_, splitCommas_items first x more offset⟩

theorem dropQuantifier_path (p : Path) (lexemes : List Lexeme) (offset : Nat) :
    dropQuantifier (locate offset (p.lexemes ++ lexemes))
      = locate offset (p.lexemes ++ lexemes) := by
  rw [Path.lexemes, List.cons_append, locate_apart, dropQuantifier,
    p.first.token_isOneOf _ (by decide), if_neg Bool.false_ne_true]

/-- No item starts with a quantifier. -/
theorem dropQuantifier_item (item : Item) (offset : Nat) :
    dropQuantifier (locate offset item.lexemes)
      = locate offset item.lexemes := by
  cases item with
  | all => rfl
  | allOf q => exact dropQuantifier_path q _ offset
  | column r =>
    have h := dropQuantifier_path r.path [] offset
    rwa [List.append_nil] at h
  | renamed r name => exact dropQuantifier_path r.path _ offset

/-- An item is read as the column or the wildcard that it is. -/
theorem addItem_locate {text front back : Text} (item : Item)
    (projection : Projection)
    (h : text = front ++ (spell item.lexemes ++ back)) :
    Projection.addItem text (locate (width front) item.lexemes) projection
      = { columns := item.column?.toList ++ projection.columns,
          wildcards := item.wildcard?.toList ++ projection.wildcards } := by
  unfold Projection.addItem
  cases item with
  | all => rfl
  | allOf q =>
    rw [Item.lexemes, wildcardOf_qualified]
    rfl
  | column r =>
    have hnone : wildcardOf (locate (width front) r.path.lexemes) = none := by
      obtain ⟨start, ⟨-, hreverse⟩ | ⟨q, start', -, hreverse⟩⟩ :=
        reverse_locate_reference r (width front)
      · exact wildcardOf_identifier hreverse
      · exact wildcardOf_identifier hreverse
    rw [Item.lexemes, hnone, columnOf_reference]
    rfl
  | renamed r name =>
    have hfront : text = front ++ (spell r.path.lexemes
        ++ (spell [.apart (kw .AS), .apart name.symbol] ++ back)) := by
      rw [h, Item.lexemes, spell_append, List.append_assoc]
    obtain ⟨start, start', hreverse⟩ :=
      reverse_locate r.path.lexemes (.apart (kw .AS)) (.apart name.symbol)
        (width front)
    rw [Item.lexemes, wildcardOf_identifier hreverse,
      columnOf_renamed r name hfront]
    rfl

theorem foldr_items {text front back : Text} (first : Item) (more : List Item)
    (h : text = front ++ (spell (listed Item.lexemes ⟨first, more⟩) ++ back)) :
    (splitCommas 0
      (locate (width front) (listed Item.lexemes ⟨first, more⟩))).foldr
      (fun item => Projection.addItem text (dropQuantifier item)) {}
      = { columns := (first :: more).filterMap Item.column?,
          wildcards := (first :: more).filterMap Item.wildcard? } := by
  induction more generalizing first front with
  | nil =>
    rw [listed_single] at h
    rw [splitCommas_item, List.foldr_cons, dropQuantifier_item,
      addItem_locate first _ h]
    cases first <;> rfl
  | cons x more ih =>
    obtain ⟨hfirst, hmore, hoffset⟩ := spell_listed_cons h
    have hrest := ih x hmore
    rw [hoffset] at hrest
    rw [splitCommas_items, List.foldr_cons, hrest, dropQuantifier_item,
      addItem_locate first _ hfirst]
    cases first <;> rfl

/-- A select list is read as its items. -/
theorem foldr_selectList {text front back : Text} (d : Definition)
    (h : text = front ++ (spell d.selectList ++ back)) :
    (splitCommas 0 (locate (width front) d.selectList)).foldr
        (fun item => Projection.addItem text (dropQuantifier item)) {}
      = d.projection := by
  rcases hdistinct : d.distinct with _ | _
  · have hlist : d.selectList
        = listed Item.lexemes ⟨d.items.first, d.items.more⟩ := by
      simp [Definition.selectList, hdistinct]
    rw [hlist] at h ⊢
    exact foldr_items d.items.first d.items.more h
  · have hlist : d.selectList
        = [.apart (kw .DISTINCT)]
          ++ listed Item.lexemes ⟨d.items.first, d.items.more⟩ := by
      simp [Definition.selectList, hdistinct]
    have hfront : text = (front ++ " DISTINCT".toList)
        ++ (spell (listed Item.lexemes ⟨d.items.first, d.items.more⟩)
          ++ back) := by
      rw [h, hlist, spell_append]
      simp [kw, GrammarWord.text, Symbol.chars]
    have hoffset : width (front ++ " DISTINCT".toList) = width front + 9 := by
      rw [width_append]
      rfl
    have hitems := foldr_items d.items.first d.items.more hfront
    have hquantifier : ((kw .DISTINCT).token (width front + 1)).isOneOf
          ["DISTINCT", "ALL"] = true :=
      (kw_isOneOf ..).trans (by decide)
    obtain ⟨groups, hgroups⟩ :=
      splitCommas_head ⟨d.items.first, d.items.more⟩ (width front + 9)
    rw [hoffset, hgroups, List.foldr_cons, dropQuantifier_item] at hitems
    -- The quantifier goes to the first group and is dropped from it.
    have hword : ∀ t ∈ locate (width front) [.apart (kw .DISTINCT)],
        Inert t ∧ t.kind ≠ .comma := by
      intro t ht
      rw [List.mem_singleton.1 ht]
      refine ⟨inert_kw .DISTINCT (by simp) _, ?_⟩
      change TokenKind.word ≠ .comma
      decide
    rw [hlist, locate_append, splitCommas_inert hword]
    simp only [locate_apart, locate_nil, spell_apart, spell_nil]
    rw [show width front + width (' ' :: (kw .DISTINCT).chars ++ [])
        = width front + 9 from rfl, hgroups, foldr_consGroup, List.foldr_cons,
      List.singleton_append, dropQuantifier, if_pos hquantifier]
    exact hitems

/-! ## Tables -/

theorem tableRefsFrom_inert {tokens rest : List Token}
    (h : ∀ t ∈ tokens, Inert t) (previous : Option Token) (calls : List Bool) :
    ∃ previous',
      tableRefsFrom previous calls (tokens ++ rest)
        = tableRefsFrom previous' calls rest := by
  induction tokens generalizing previous with
  | nil => exact ⟨previous, rfl⟩
  | cons t ts ih =>
    have ht := h t (by simp)
    obtain ⟨previous', hrest⟩ := ih (fun u hu => h u (by simp [hu])) (some t)
    refine ⟨previous', ?_⟩
    rw [List.cons_append, tableRefsFrom]
    split
    · rename_i hkind
      exact absurd hkind ht.not_leftParen
    · rename_i hkind
      exact absurd hkind ht.not_rightParen
    · simp [ht.not_from, ht.not_join, hrest]

/-- A path goes on to its end. -/
theorem pathTail_dotted (more : List Identifier) (offset : Nat)
    {rest : List Token} (hrest : pathTail rest = 0) :
    pathTail (locate offset (dotted more) ++ rest)
      = (locate offset (dotted more)).length := by
  induction more generalizing offset with
  | nil => exact hrest
  | cons i more ih =>
    rw [locate_dotted_cons, List.cons_append, List.cons_append, pathTail, ih]
    simp [Symbol.kind]

/-- Whether a list of tables ends here or goes on with a comma. -/
def EndsTable (rest : List Token) : Prop := ∀ t ∈ rest.head?, t.kind = .comma

theorem EndsTable.facts {rest : List Token} (h : EndsTable rest) :
    pathTail rest = 0 ∧ rest.head?.any (·.kind == .leftParen) = false ∧
      readAlias rest = (none, 0) := by
  cases rest with
  | nil => exact ⟨rfl, rfl, rfl⟩
  | cons t ts =>
    have hkind : t.kind = .comma := h t rfl
    refine ⟨?_, ?_, ?_⟩
    · cases ts with
      | nil => rfl
      | cons u us => simp [pathTail, hkind]
    · simp [hkind]
    · simp [readAlias, Token.isKeyword, Token.isOneOf, Token.isIdentifier,
        hkind]

theorem readTableRef_path (p : Path) (offset : Nat) {rest : List Token}
    (hrest : EndsTable rest) :
    ∃ table,
      readTableRef (locate offset p.lexemes ++ rest)
          = some (table, (locate offset p.lexemes).length) ∧
        table.name = p.text := by
  obtain ⟨htail, hparen, halias⟩ := hrest.facts
  obtain ⟨last, hlast⟩ : ∃ last,
      (locate offset p.lexemes).getLast? = some last := by
    rw [Path.lexemes, locate_apart]
    exact ⟨_, List.getLast?_cons⟩
  have hpath := dottedPath_locate p offset
  rw [Path.lexemes, locate_apart] at hpath hlast ⊢
  rw [List.cons_append, readTableRef, pathTail_dotted p.more _ htail]
  simp only [Identifier.token_isIdentifier, Bool.not_true, Bool.false_eq_true,
    if_false, List.drop_left, List.take_left, hparen, halias, hpath, hlast,
    Option.bind_eq_bind, Option.bind_some]
  refine ⟨{ name := p.text, start := offset + 1, stop := last.stop }, ?_, rfl⟩
  simp [Nat.add_comm]

theorem readTableList_skip (commas : Bool) (taken rest : List Token) :
    readTableList commas taken.length (taken ++ rest)
      = readTableList commas 0 rest := by
  induction taken with
  | nil => rfl
  | cons t ts ih => rw [List.length_cons, List.cons_append, readTableList, ih]

/-- One table of a list: the list goes on behind it if a comma does. -/
theorem readTableList_path (p : Path) (offset : Nat) {rest : List Token}
    (hrest : EndsTable rest) :
    ∃ table, table.name = p.text ∧
      readTableList true 0 (locate offset p.lexemes ++ rest)
        = table :: readTableList true 0 rest.tail := by
  obtain ⟨table, hread, hname⟩ := readTableRef_path p offset hrest
  refine ⟨table, hname, ?_⟩
  have honly : (p.first.symbol.token (offset + 1)).isKeyword "ONLY" = false :=
    p.first.token_isOneOf _ (by decide)
  rw [Path.lexemes, locate_apart] at hread ⊢
  rw [List.cons_append] at hread ⊢
  rw [readTableList]
  simp only [honly, Bool.false_eq_true, if_false, List.drop_zero, hread,
    Nat.zero_add, List.length_cons, List.drop_succ_cons, List.drop_left]
  cases rest with
  | nil => rfl
  | cons t ts =>
    have hkind : t.kind = .comma := hrest t rfl
    -- The skipped tokens are the rest of the path and the comma.
    have hskip :=
      readTableList_skip true
        (locate (offset + 1 + width p.first.symbol.chars) (dotted p.more)
          ++ [t]) ts
    rw [List.length_append, List.append_assoc] at hskip
    simpa [hkind] using hskip

theorem readTableList_tables (first : Path) (more : List Path) (offset : Nat) :
    (readTableList true 0
        (locate offset (listed Path.lexemes ⟨first, more⟩))).map TableRef.upper
      = (first :: more).map fun p => upper p.text := by
  induction more generalizing first offset with
  | nil =>
    obtain ⟨table, hname, hread⟩ :=
      readTableList_path first offset (show EndsTable [] from nofun)
    rw [List.append_nil] at hread
    rw [listed_single, hread]
    simp [TableRef.upper, hname, readTableList]
  | cons x more ih =>
    rw [listed_cons, locate_append, locate_tight]
    generalize htail : locate _ (listed Path.lexemes ⟨x, more⟩) = tail
    obtain ⟨table, hname, hread⟩ :=
      readTableList_path first offset
        (show EndsTable
          (Symbol.comma.token (offset + width (spell first.lexemes)) :: tail) by
        intro t ht
        cases ht
        rfl)
    rw [hread, List.map_cons, List.tail_cons, ← htail, ih]
    simp [TableRef.upper, hname]

/-! ## Bodies -/

/-- The body of a definition puts out its projection. -/
theorem projectionOf_body {text front back : Text} (d : Definition)
    (h : text = front ++ (spell d.body ++ back)) :
    projectionOf text (locate (width front) d.body) = d.projection := by
  have hselect : ((kw .SELECT).token (width front)).isKeyword "SELECT" = true :=
    kw_isKeyword .SELECT (width front)
  have hfrom : ∀ start,
      ((kw .FROM).token start).isOneOf Keyword.afterProjection = true := by
    intro start
    exact (kw_isOneOf ..).trans (by decide)
  have hfront : text = (front ++ "SELECT".toList)
      ++ (spell d.selectList
        ++ (spell (.apart (kw .FROM) :: listed Path.lexemes d.tables)
          ++ back)) := by
    rw [h, Definition.body, spell_tight, spell_append]
    simp [kw, GrammarWord.text, Symbol.chars]
  have hoffset : width (front ++ "SELECT".toList)
      = width front + width (kw .SELECT).chars := by
    rw [width_append]
    rfl
  have hlist := foldr_selectList d hfront
  rw [hoffset] at hlist
  rw [Definition.body, locate_tight, locate_append, locate_apart, projectionOf,
    afterSelect]
  simp only [kw_kind, hselect, and_self, if_true]
  rw [untilClause_inert ((AllInert.selectList d).tokens _), untilClause]
  simp only [kw_kind, hfrom, and_self, if_true, List.append_nil]
  exact hlist

/-- The body of a definition reads from its tables. -/
theorem tableRefs_body (d : Definition) (offset : Nat) :
    (tableRefs (locate offset d.body)).map TableRef.upper
      = d.tables.toList.map fun p => upper p.text := by
  have hfrom : ∀ start, ((kw .FROM).token start).isKeyword "FROM" = true :=
    kw_isKeyword .FROM
  have hinert : AllInert (.tight (kw .SELECT) :: d.selectList) :=
    AllInert.cons (inert_kw .SELECT nofun) (AllInert.selectList d)
  have hsplit : d.body = (.tight (kw .SELECT) :: d.selectList)
      ++ .apart (kw .FROM)
        :: listed Path.lexemes ⟨d.tables.first, d.tables.more⟩ := rfl
  rw [tableRefs, hsplit, locate_append, locate_apart]
  generalize hat : offset + _ + 1 = start
  obtain ⟨previous, hskip⟩ := tableRefsFrom_inert (hinert.tokens offset) none []
  rw [hskip, tableRefsFrom]
  simp only [kw_kind, hfrom]
  obtain ⟨previous', hrest⟩ :=
    tableRefsFrom_inert
      ((AllInert.listed AllInert.path ⟨d.tables.first, d.tables.more⟩).tokens
        (start + width (kw .FROM).chars)) (some ((kw .FROM).token start)) []
  rw [List.append_nil] at hrest
  rw [hrest]
  simpa [tableRefsFrom, OneOrMore.toList]
    using readTableList_tables d.tables.first d.tables.more
      (start + width (kw .FROM).chars)

end QueryAssist.Written
