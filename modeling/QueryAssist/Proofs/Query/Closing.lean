import QueryAssist.Proofs.Query.Layout
import QueryAssist.Proofs.Text.ParenScan
import QueryAssist.Proofs.Token.Lexing

/-!
# The parenthesis that closes a body

The end of a body is found by a scan of characters, while all else about a
definition is read off tokens. The scan knows literals but no quoted names: to
it a parenthesis or a quote in a quoted name is one like any other. Main
statement: as long as the quoted names of a body leave the nesting as it is, the
scan ends at the token that closes the body by the count of parenthesis tokens,
and reading goes on right behind that token.
-/

namespace QueryAssist

open Text

/-! ## Characters that a scan passes through -/

namespace Text

namespace Nesting

/-- The scan closes nothing down to depth zero in the characters and comes out
of them as it went in. -/
def PassesThrough (state : Nesting) (chars : Text) : Prop :=
  closingFrom state 0 chars = none ∧ chars.foldl step state = state

instance (state : Nesting) (chars : Text) :
    Decidable (state.PassesThrough chars) :=
  inferInstanceAs (Decidable (_ ∧ _))

variable {state : Nesting} {chars : Text}

/-- The scan goes on behind characters that it passes through. -/
theorem PassesThrough.closingFrom_append (h : state.PassesThrough chars)
    (offset : Nat) (rest : Text) :
    closingFrom state offset (chars ++ rest)
      = closingFrom state (offset + width chars) rest := by
  rw [Text.closingFrom_append, (closingFrom_eq_none_iff offset).2 h.1, h.2]
  rfl

theorem PassesThrough.append {more : Text} (h : state.PassesThrough chars)
    (hmore : state.PassesThrough more) :
    state.PassesThrough (chars ++ more) := by
  constructor
  · rw [h.closingFrom_append, closingFrom_add, hmore.1]
    rfl
  · rw [List.foldl_append, h.2, hmore.2]

/-- A character without an event that leaves the state alone is passed. -/
theorem passesThrough_of_step
    (h : ∀ c ∈ chars, state.event c = .other ∧ state.step c = state) :
    state.PassesThrough chars := by
  induction chars with
  | nil => exact ⟨rfl, rfl⟩
  | cons c cs ih =>
    obtain ⟨hevent, hstep⟩ := h c (by simp)
    have hfirst : state.PassesThrough [c] :=
      ⟨by simp [closingFrom, hevent], hstep⟩
    exact hfirst.append (ih fun d hd => h d (by simp [hd]))

theorem passesThrough_of_isQuiet
    (h : ∀ c ∈ chars, isQuiet c = true) : state.PassesThrough chars := by
  refine passesThrough_of_step fun c hc => ?_
  obtain ⟨hopen, hclose, hquote⟩ := isQuiet_iff.1 (h c hc)
  have hevent : state.event c = .other := by simp [event, hopen, hclose]
  exact ⟨hevent, by simp [step, hquote, hevent]⟩

/-- In a literal all but its closing quote is passed. -/
theorem passesThrough_of_inString (h : '\'' ∉ chars) (depth : Nat) :
    PassesThrough { depth, inString := true } chars := by
  refine passesThrough_of_step fun c hc => ?_
  have hquote : c ≠ '\'' := by
    rintro rfl
    exact h hc
  exact ⟨rfl, by simp [step, hquote, event]⟩

/-- A literal is passed from its opening to its closing quote. -/
theorem passesThrough_literal {body : Text} (h : '\'' ∉ body) (depth : Nat) :
    PassesThrough { depth } ('\'' :: (body ++ ['\''])) := by
  have hbody := passesThrough_of_inString h depth
  constructor
  · have hstep : closingFrom { depth } 0 ('\'' :: (body ++ ['\'']))
        = closingFrom { depth, inString := true } 1 (body ++ ['\'']) := rfl
    rw [hstep, hbody.closingFrom_append]
    rfl
  · rw [List.foldl_cons, List.foldl_append]
    have hopen : step { depth } '\'' = { depth, inString := true } := rfl
    rw [hopen, hbody.2]
    rfl

/-- What is passed inside one parenthesis is passed inside any
number of them. -/
theorem PassesThrough.deeper (h : PassesThrough { depth := 1 } chars)
    (depth : Nat) : PassesThrough { depth := depth + 1 } chars := by
  obtain ⟨hnone, hthrough⟩ := scan_deeper (by simp) h.1 depth
  have hstate : Nesting.deeper { depth := 1 } depth
      = { depth := depth + 1 } := by
    simp only [Nesting.deeper, Nat.add_comm]
  rw [h.2, hstate] at hthrough
  exact ⟨hstate ▸ hnone, hthrough⟩

end Nesting

end Text

/-! ## The count of parenthesis tokens -/

/-- The token that closes `depth` further parentheses and then its own, by the
count of parenthesis tokens. -/
def closingToken? (depth : Nat) (tokens : List Token) : Option Token :=
  (groupLength depth tokens).bind (tokens[·]?)

section

variable {t : Token} {depth : Nat} (ts : List Token)

theorem groupLength_other (hleft : t.kind ≠ .leftParen)
    (hright : t.kind ≠ .rightParen) :
    groupLength depth (t :: ts) = (groupLength depth ts).map (· + 1) := by
  rw [groupLength]
  split
  · exact absurd ‹_› hleft
  · exact absurd ‹_› hright
  · rfl

/-- Behind a token that is counted in, the search goes on. -/
theorem closingToken?_cons {inner : Nat}
    (h : groupLength depth (t :: ts) = (groupLength inner ts).map (· + 1)) :
    closingToken? depth (t :: ts) = closingToken? inner ts := by
  rw [closingToken?, closingToken?, h]
  cases groupLength inner ts with
  | none => rfl
  | some n => rfl

theorem closingToken?_leftParen (h : t.kind = .leftParen) :
    closingToken? depth (t :: ts) = closingToken? (depth + 1) ts :=
  closingToken?_cons ts (by simp [groupLength, h])

theorem closingToken?_rightParen (h : t.kind = .rightParen) :
    closingToken? depth (t :: ts)
      = if depth = 0 then some t else closingToken? (depth - 1) ts := by
  by_cases hdepth : depth = 0
  · simp [closingToken?, groupLength, h, hdepth]
  · rw [if_neg hdepth]
    exact closingToken?_cons ts (by simp [groupLength, h, hdepth])

theorem closingToken?_other (hleft : t.kind ≠ .leftParen)
    (hright : t.kind ≠ .rightParen) :
    closingToken? depth (t :: ts) = closingToken? depth ts :=
  closingToken?_cons ts (groupLength_other ts hleft hright)

end

/-- The closing token stands behind as many tokens as were counted. -/
theorem closingToken?_eq_some {depth : Nat} {tokens : List Token}
    {closing : Token} (h : closingToken? depth tokens = some closing) :
    closing.kind = .rightParen ∧
      ∃ inside later, tokens = inside ++ closing :: later ∧
        groupLength depth tokens = some inside.length := by
  induction tokens generalizing depth with
  | nil => cases h
  | cons t ts ih =>
    by_cases hleft : t.kind = .leftParen
    · rw [closingToken?_leftParen ts hleft] at h
      obtain ⟨hkind, inside, later, rfl, hlen⟩ := ih h
      exact ⟨hkind, t :: inside, later, rfl, by simp [groupLength, hleft, hlen]⟩
    · by_cases hright : t.kind = .rightParen
      · rw [closingToken?_rightParen ts hright] at h
        split at h
        · rename_i hdepth
          cases h
          exact ⟨hright, [], ts, rfl, by simp [groupLength, hright, hdepth]⟩
        · rename_i hdepth
          obtain ⟨hkind, inside, later, rfl, hlen⟩ := ih h
          exact ⟨hkind, t :: inside, later, rfl,
            by simp [groupLength, hright, hdepth, hlen]⟩
      · rw [closingToken?_other ts hleft hright] at h
        obtain ⟨hkind, inside, later, rfl, hlen⟩ := ih h
        exact ⟨hkind, t :: inside, later, rfl,
          by rw [groupLength_other _ hleft hright, hlen]; rfl⟩

/-! ## One token of the scan -/

/-- The scan passes through a token that is no parenthesis, if it is a quoted
name only if it leaves the nesting as it is; or the token is a literal that
never ends. -/
theorem passesThrough_of_munch {c : Char} {more rest : Text} {kind : TokenKind}
    (hmunch : munch c (more ++ rest) = (kind, more.length))
    (hleft : kind ≠ .leftParen) (hright : kind ≠ .rightParen)
    (hquoted :
      kind = .quotedName → Nesting.PassesThrough { depth := 1 } (c :: more))
    (depth : Nat) :
    Nesting.PassesThrough { depth := depth + 1 } (c :: more) ∨
      rest = [] ∧
        ∀ offset,
          closingFrom { depth := depth + 1 } offset (c :: more) = none := by
  by_cases hname : kind = .quotedName
  · exact Or.inl ((hquoted hname).deeper depth)
  by_cases hstring : kind = .string
  · obtain ⟨rfl, hlen⟩ := munch_of_string (by rw [hmunch]; exact hstring)
    simp only [hmunch] at hlen
    rcases closedLength_eq_length_cases hlen.symm
      with ⟨body, rfl, hbody⟩ | ⟨hrest, hnone⟩
    · exact Or.inl (Nesting.passesThrough_literal hbody _)
    · have hpass := Nesting.passesThrough_of_inString hnone (depth + 1)
      refine Or.inr ⟨hrest, fun offset => ?_⟩
      have hstep : closingFrom { depth := depth + 1 } offset ('\'' :: more)
          = closingFrom { depth := depth + 1, inString := true }
            (offset + 1) more := rfl
      rw [hstep, closingFrom_eq_none_iff]
      exact hpass.1
  · obtain ⟨hc, hmore⟩ :=
      isQuiet_of_munch c (more ++ rest) (by rw [hmunch]; exact hleft)
        (by rw [hmunch]; exact hright) (by rw [hmunch]; exact hstring)
        (by rw [hmunch]; exact hname)
    rw [hmunch, List.take_left] at hmore
    exact Or.inl
      (Nesting.passesThrough_of_isQuiet (List.forall_mem_cons.2 ⟨hc, hmore⟩))

/-- The scan of characters ends at the token that closes by count, if all quoted
names before it leave the nesting as it is. -/
theorem closingFrom_eq_closingToken {offset : Nat} {text : Text}
    {ts : List Token} (h : Lexes offset text ts) {depth : Nat}
    (hnames : ∀ t ∈ ts,
      (∀ close ∈ closingFrom { depth := depth + 1 } offset text,
          t.start < close) →
        t.kind = .quotedName →
        Nesting.PassesThrough { depth := 1 } t.text.toList) :
    closingFrom { depth := depth + 1 } offset text
      = (closingToken? depth ts).map Token.start := by
  induction h generalizing depth with
  | done => rfl
  | @blank offset c cs ts hblank tail ih =>
    have hpass : Nesting.PassesThrough { depth := depth + 1 } [c] :=
      Nesting.passesThrough_of_isQuiet (by simp [isQuiet_of_isBlank hblank])
    have hscan := hpass.closingFrom_append offset cs
    rw [List.singleton_append, width_cons, width_nil, Nat.add_zero] at hscan
    rw [hscan] at hnames ⊢
    exact ih hnames
  | @token offset c more rest kind ts hblank hmunch tail ih =>
    by_cases hleft : kind = .leftParen
    · obtain ⟨rfl, hmore⟩ :=
        munch_of_mark (m := '(') (by rw [hmunch, hleft]; rfl)
      obtain rfl : more = [] :=
        List.length_eq_zero_iff.1 (by rw [hmunch] at hmore; exact hmore)
      have hscan : closingFrom { depth := depth + 1 } offset
            ('(' :: ([] ++ rest))
          = closingFrom { depth := depth + 1 + 1 }
            (offset + width ['(']) rest := rfl
      rw [hscan] at hnames ⊢
      rw [closingToken?_leftParen ts hleft]
      exact ih fun t ht => hnames t (List.mem_cons_of_mem _ ht)
    by_cases hright : kind = .rightParen
    · obtain ⟨rfl, hmore⟩ :=
        munch_of_mark (m := ')') (by rw [hmunch, hright]; rfl)
      obtain rfl : more = [] :=
        List.length_eq_zero_iff.1 (by rw [hmunch] at hmore; exact hmore)
      rw [closingToken?_rightParen ts hright]
      cases depth with
      | zero => rfl
      | succ depth =>
        have hscan : closingFrom { depth := depth + 1 + 1 } offset
              (')' :: ([] ++ rest))
            = closingFrom { depth := depth + 1 } (offset + width [')']) rest :=
          rfl
        rw [hscan] at hnames ⊢
        exact ih fun t ht => hnames t (List.mem_cons_of_mem _ ht)
    -- any other token is passed, and if it is a quoted name it starts before
    -- the end of the scan
    have hquoted : kind = .quotedName →
        Nesting.PassesThrough { depth := 1 } (c :: more) := by
      intro hname
      have hpass := hnames _ List.mem_cons_self ?_ hname
      · rwa [String.toList_ofList] at hpass
      · intro close hclose
        have hstep : closingFrom { depth := depth + 1 } offset
              (c :: (more ++ rest))
            = closingFrom { depth := depth + 1 } (offset + c.utf8Size)
              (more ++ rest) := by
          rcases munch_of_quotedName (by rw [hmunch]; exact hname)
              with rfl | rfl <;> rfl
        rw [hstep] at hclose
        have := closingFrom_ge hclose
        have := c.utf8Size_pos
        simp only
        omega
    rw [closingToken?_other ts hleft hright]
    rcases passesThrough_of_munch hmunch hleft hright hquoted depth
      with hpass | ⟨rfl, hopen⟩
    · have hscan := hpass.closingFrom_append offset rest
      rw [List.cons_append] at hscan
      rw [hscan] at hnames ⊢
      exact ih fun t ht => hnames t (List.mem_cons_of_mem _ ht)
    · cases tail
      rw [List.append_nil, hopen]
      rfl

/-! ## Bodies -/

/-- A definition was read at its name, after the token that stands before it. -/
theorem mem_definitionsFrom {text clean : Text} {skip : Nat}
    {previous : Option Token} {tokens : List Token} {s : Subquery}
    (h : s ∈ definitionsFrom text clean skip previous tokens) :
    ∃ before name rest used, tokens = before ++ name :: rest ∧
      definitionAt text clean (before.getLast?.or previous) name rest
        = some (s, used) := by
  induction tokens generalizing skip previous with
  | nil => cases h
  | cons t ts ih =>
    have hlater : ∀ skip, s ∈ definitionsFrom text clean skip (some t) ts →
        ∃ before name rest used, t :: ts = before ++ name :: rest ∧
          definitionAt text clean (before.getLast?.or previous) name rest
            = some (s, used) := by
      intro skip hin
      obtain ⟨before, name, rest, used, rfl, hat⟩ := ih hin
      refine ⟨t :: before, name, rest, used, rfl, ?_⟩
      rw [List.getLast?_cons, Option.some_or]
      cases hlast : before.getLast? <;> simpa [hlast] using hat
    cases skip with
    | succ n => exact hlater n h
    | zero =>
      rw [definitionsFrom] at h
      split at h
      · rename_i first used hat
        rcases List.mem_cons.1 h with rfl | hin
        · exact ⟨[], t, ts, used, rfl, hat⟩
        · exact hlater used hin
      · exact hlater 0 h

theorem mem_parseSubqueries {text : Text} {s : Subquery}
    (h : s ∈ parseSubqueries text) :
    ∃ before name rest used, tokenize text.sanitize = before ++ name :: rest ∧
      definitionAt text text.sanitize before.getLast? name rest
        = some (s, used) := by
  rw [parseSubqueries_eq, subqueriesOf] at h
  split at h
  · simpa using mem_definitionsFrom h
  · cases h

/-- The scan from an opening parenthesis token is the scan, inside one
parenthesis, of what is read behind it. -/
theorem matchingParen_opening {clean : Text} {before after : List Token}
    {opening : Token} (htokens : tokenize clean = before ++ opening :: after)
    (hkind : opening.kind = .leftParen) :
    ∃ rest, Lexes (opening.start + 1) rest after ∧
      clean.matchingParen opening.start
        = closingFrom { depth := 1 } (opening.start + 1) rest := by
  have hlexes := lexes_tokenize clean
  rw [htokens] at hlexes
  obtain ⟨a, lexeme, rest, htext, hstart, hlexeme, hrest⟩ :=
    hlexes.of_append [] rfl
  have hmem : opening ∈ tokenize clean := by rw [htokens]; simp
  have hparen : lexeme = ['('] := by
    rw [hlexeme, (hasAt_mark hmem (m := '(') (by rw [hkind]; rfl)).2,
      String.toList_ofList]
  subst hparen
  rw [List.nil_append] at htext
  refine ⟨rest, hrest, ?_⟩
  rw [matchingParen, htext, ← hstart, after_append_width]
  rfl

/-- Whether a token leaves the nesting of parentheses as it is, unless it is no
quoted name. -/
def Token.KeepsNesting (t : Token) : Prop :=
  t.kind = .quotedName → Nesting.PassesThrough { depth := 1 } t.text.toList

instance (t : Token) : Decidable t.KeepsNesting :=
  inferInstanceAs (Decidable (_ → _))

/-- The token that closes an opening parenthesis by count is found by the scan,
if no quoted name before it is in the way. -/
theorem matchingParen_eq_closingToken {clean : Text} {before after : List Token}
    {opening : Token} (htokens : tokenize clean = before ++ opening :: after)
    (hkind : opening.kind = .leftParen)
    (hnames : ∀ t ∈ after,
      (∀ close ∈ clean.matchingParen opening.start, t.start < close) →
        t.KeepsNesting) :
    clean.matchingParen opening.start
      = (closingToken? 0 after).map Token.start := by
  obtain ⟨rest, hlexes, hscan⟩ := matchingParen_opening htokens hkind
  rw [hscan] at hnames ⊢
  exact closingFrom_eq_closingToken hlexes hnames

/-- The definition at a name takes the tokens up to the one that closes its
body, if no quoted name of the body is in the way. -/
theorem definition_closes {text : Text} {s : Subquery}
    {before rest : List Token} {name : Token} {used : Nat}
    (htokens : tokenize text.sanitize = before ++ name :: rest)
    (hat : definitionAt text text.sanitize before.getLast? name rest
      = some (s, used)) :
    ∃ between opening after, rest = between ++ opening :: after ∧
      name.start = s.start ∧ opening.kind = .leftParen ∧
      opening.stop = s.bodyStart ∧
      ((∀ t ∈ after, t.start < s.bodyStop → t.KeepsNesting) →
        ∃ inside closing later, after = inside ++ closing :: later ∧
          groupLength 0 after = some inside.length ∧
          closing.kind = .rightParen ∧ closing.start = s.bodyStop ∧
          definitionsFrom text text.sanitize 0 before.getLast? (name :: rest)
            = s
              :: definitionsFrom text text.sanitize 0
                (some closing) later) := by
  have hread := hat
  rw [definitionAt_eq] at hread
  obtain ⟨⟨layout, taken⟩, hlayout, heq⟩ := Option.map_eq_some_iff.1 hread
  obtain ⟨rfl, rfl⟩ := Prod.mk.inj heq
  obtain ⟨hname, hkind, hclose, between, after, hrest, hbody, hused⟩ :=
    layoutAt_eq_some hlayout
  refine ⟨between, layout.opening, after, hrest, by rw [← hname]; rfl, hkind,
    rfl, fun hnames => ?_⟩
  have hopening : tokenize text.sanitize
      = (before ++ name :: between) ++ layout.opening :: after := by
    rw [htokens, hrest]
    simp
  -- the scan ends at the close of the layout, so the names that matter are
  -- those of the body
  have hcount := matchingParen_eq_closingToken hopening hkind
    fun t ht hbefore => hnames t ht (hbefore _ hclose)
  rw [hclose] at hcount
  obtain ⟨closing, hclosing, hstart⟩ := Option.map_eq_some_iff.1 hcount.symm
  obtain ⟨hright, inside, later, hafter, hlength⟩ :=
    closingToken?_eq_some hclosing
  refine ⟨inside, closing, later, hafter, hlength, hright, hstart, ?_⟩
  -- the body is what stands before the closing token, and that token is
  -- taken too
  have hinside : layout.body = inside := by
    have hord := (aligned_tokenize text).starts_increase
    rw [hopening, hafter] at hord
    have hlt : ∀ t ∈ inside, t.start < closing.start := fun t ht =>
      (List.pairwise_append.1
        (List.pairwise_cons.1 (List.pairwise_append.1 hord).2.1).2).2.2 t ht
        closing (by simp)
    rw [hbody, hafter, ← hstart,
      List.takeWhile_append_of_pos (by simpa using hlt),
      List.takeWhile_cons_of_neg (by simp), List.append_nil]
  have htaken : rest
      = ((between ++ layout.opening :: inside) ++ [closing]) ++ later := by
    rw [hrest, hafter]
    simp
  have hlen : taken
      = ((between ++ layout.opening :: inside) ++ [closing]).length := by
    rw [hused, hinside]
    simp only [List.length_append, List.length_cons, List.length_nil]
    omega
  have hlast : (((between ++ layout.opening :: inside) ++ [closing]).getLast?.or
        (some name))
      = some closing := by
    rw [List.getLast?_concat, Option.some_or]
  rw [definitionsFrom, hat]
  simp only
  rw [hlen, htaken, definitionsFrom_skip, hlast]

/-- Where quoted names leave the nesting as it is, the scan for the closing
parenthesis agrees with the count of parenthesis tokens: it ends at the token
that closes an opening one, if there is one. The body of a definition stops
there as soon as the quoted names in the body do so, and reading goes on with
the token behind. -/
theorem body_closes_by_token_count (text : Text) :
    (∀ before opening after,
        tokenize text.sanitize = before ++ opening :: after →
          opening.kind = .leftParen → (∀ t ∈ after, t.KeepsNesting) →
          text.sanitize.matchingParen opening.start
            = (closingToken? 0 after).map Token.start) ∧
      ∀ s ∈ parseSubqueries text, ∃ before name between opening after,
        tokenize text.sanitize
            = before ++ name :: (between ++ opening :: after) ∧
          name.start = s.start ∧ opening.kind = .leftParen ∧
          opening.stop = s.bodyStart ∧
          ((∀ t ∈ after, t.start < s.bodyStop → t.KeepsNesting) →
            ∃ inside closing later, after = inside ++ closing :: later ∧
              groupLength 0 after = some inside.length ∧
              closing.kind = .rightParen ∧ closing.start = s.bodyStop ∧
              definitionsFrom text text.sanitize 0 before.getLast?
                  (name :: (between ++ opening :: after))
                = s :: definitionsFrom text text.sanitize 0
                    (some closing) later) := by
  constructor
  · intro before opening after htokens hkind hnames
    exact matchingParen_eq_closingToken htokens hkind fun t ht _ => hnames t ht
  · intro s hs
    obtain ⟨before, name, rest, used, htokens, hat⟩ := mem_parseSubqueries hs
    obtain ⟨between, opening, after, rfl, hcloses⟩ :=
      definition_closes htokens hat
    exact ⟨before, name, between, opening, after, htokens, hcloses⟩

/-- A body with a quoted name that holds two parentheses, a literal that holds
one, and a bracketed table. -/
def balancedQuery : Text :=
  "WITH a AS (SELECT \"f(x)\", ')' FROM (t)) SELECT 1".toList

theorem body_closes_by_token_count_balancedQuery :
    ∃ s ∈ parseSubqueries balancedQuery, s.bodyStop = 38 ∧
      ∃ closing ∈ tokenize balancedQuery.sanitize,
        closing.kind = .rightParen ∧ closing.start = s.bodyStop := by
  have hfound : ∃ s ∈ parseSubqueries balancedQuery, s.bodyStop = 38 := by
    decide +kernel
  have hnames : ∀ t ∈ tokenize balancedQuery.sanitize, t.KeepsNesting := by
    decide +kernel
  obtain ⟨s, hs, hstop⟩ := hfound
  obtain ⟨before, name, between, opening, after, htokens, -, -, -, hcloses⟩ :=
    (body_closes_by_token_count balancedQuery).2 s hs
  obtain ⟨inside, closing, later, hafter, -, hkind, hstart, -⟩ :=
    hcloses fun t ht _ => hnames t (by
    rw [htokens]
    simp [ht])
  refine ⟨s, hs, hstop, closing, ?_, hkind, hstart⟩
  rw [htokens, hafter]
  simp

/-- A body with a quoted name that holds a closing parenthesis. -/
def unbalancedQuery : Text := "WITH a AS (SELECT \"x)\" FROM t) SELECT 1".toList

/-- The body stops inside the quoted name, where no token starts, and its table
is lost; by the count of parenthesis tokens it is closed behind the table. -/
theorem body_stops_in_name_unbalancedQuery :
    (parseSubqueries unbalancedQuery).map
          (fun s => (s.bodyStart, s.bodyStop, s.fromTables))
        = [(11, 20, [])] ∧
      (∀ t ∈ tokenize unbalancedQuery.sanitize, t.start ≠ 20) ∧
      (tokenize unbalancedQuery.sanitize)[3]? = some ⟨.leftParen, "(", 10, 11⟩ ∧
      closingToken? 0 ((tokenize unbalancedQuery.sanitize).drop 4)
        = some ⟨.rightParen, ")", 29, 30⟩ := by
  decide +kernel

end QueryAssist
