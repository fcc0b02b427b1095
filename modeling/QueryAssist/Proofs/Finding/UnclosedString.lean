import QueryAssist.Proofs.Text.Contents
import QueryAssist.Proofs.Text.Remasking
import QueryAssist.Proofs.Token.Lexing

/-!
# Literals that are never closed

Whether a literal is open at the end of a text is asked in three ways: the
masking scanner ends in a literal, the last token is a literal without its
closing quote, and the check for unclosed literals is left with an open quote.
The first two always agree. The check counts every apostrophe, also those in
quoted names. So without backslashes it agrees with the others if the number of
apostrophes in quoted names is even, and says the opposite if it is odd.
-/

namespace QueryAssist

open Text

/-! ## The literal at the end of the tokens -/

/-- A string literal without its closing quote. -/
def Token.isOpenString (t : Token) : Bool :=
  t.kind == .string && t.text.toList.tail.getLast? != some '\''

/-- The last token, if it is a literal without its closing quote. -/
def openString? (tokens : List Token) : Option Token :=
  tokens.getLast?.filter Token.isOpenString

/-- Number of apostrophes in quoted names. -/
def apostrophesInNames (tokens : List Token) : Nat :=
  ((tokens.filter (·.kind == .quotedName)).flatMap (·.text.toList)).count '\''

theorem openString?_cons_of_not_open {t : Token} (h : t.isOpenString = false)
    (ts : List Token) : openString? (t :: ts) = openString? ts := by
  cases ts with
  | nil => simp [openString?, h]
  | cons u us => simp [openString?, List.getLast?_cons_cons]

theorem openString?_singleton {t : Token}
    (h : t.isOpenString = true) : openString? [t] = some t := by
  simp [openString?, h]

theorem apostrophesInNames_cons (t : Token) (ts : List Token) :
    apostrophesInNames (t :: ts)
      = (if t.kind = .quotedName then t.text.toList.count '\'' else 0)
        + apostrophesInNames ts := by
  unfold apostrophesInNames
  rw [List.filter_cons]
  by_cases hkind : t.kind = .quotedName
  · simp [hkind]
  · simp [hkind]

/-! ## One token -/

section

variable {c : Char} {more rest : Text} {kind : TokenKind} {start stop : Nat}

/-- Which apostrophes a token has: the one of a literal that goes on to the end
of the text, the two of any other literal, those of a quoted name, or none. -/
theorem apostrophes_of_munch
    (hmunch : munch c (more ++ rest) = (kind, more.length)) :
    (kind = .string ∧ c = '\'' ∧ rest = [] ∧ '\'' ∉ more) ∨
      (kind = .string ∧ c = '\'' ∧
        ∃ body, more = body ++ ['\''] ∧ '\'' ∉ body) ∨
      kind = .quotedName ∨
      (kind ≠ .string ∧ kind ≠ .quotedName ∧ '\'' ∉ c :: more) := by
  by_cases hstring : kind = .string
  · obtain ⟨hc, hlen⟩ := munch_of_string (by rw [hmunch]; exact hstring)
    rw [hmunch] at hlen
    rcases closedLength_eq_length_cases hlen.symm with hclosed | hopen
    · exact Or.inr (Or.inl ⟨hstring, hc, hclosed⟩)
    · exact Or.inl ⟨hstring, hc, hopen⟩
  by_cases hname : kind = .quotedName
  · exact Or.inr (Or.inr (Or.inl hname))
  refine Or.inr (Or.inr (Or.inr ⟨hstring, hname, ?_⟩))
  have hmark : ∀ m, kind.mark? = some m → c = m ∧ more = [] := by
    intro m hm
    obtain ⟨hc, hlen⟩ := munch_of_mark (by rw [hmunch]; exact hm)
    rw [hmunch] at hlen
    exact ⟨hc, List.length_eq_zero_iff.1 hlen⟩
  by_cases hleft : kind = .leftParen
  · obtain ⟨rfl, rfl⟩ := hmark '(' (by rw [hleft]; rfl)
    decide
  by_cases hright : kind = .rightParen
  · obtain ⟨rfl, rfl⟩ := hmark ')' (by rw [hright]; rfl)
    decide
  obtain ⟨hc, hmore⟩ :=
    isQuiet_of_munch c (more ++ rest) (by rw [hmunch]; exact hleft)
      (by rw [hmunch]; exact hright) (by rw [hmunch]; exact hstring)
      (by rw [hmunch]; exact hname)
  rw [hmunch, List.take_left] at hmore
  intro hmem
  rcases List.mem_cons.1 hmem with heq | hmem
  · exact (isQuiet_iff.1 hc).2.2 heq.symm
  · exact (isQuiet_iff.1 (hmore _ hmem)).2.2 rfl

theorem isOpenString_of_kind (h : kind ≠ .string) :
    Token.isOpenString { kind, text := String.ofList (c :: more), start, stop }
      = false := by
  simp [Token.isOpenString, h]

theorem isOpenString_closed (body : Text) :
    Token.isOpenString
        { kind := .string, text := String.ofList ('\'' :: (body ++ ['\''])),
          start, stop } = false := by
  simp [Token.isOpenString]

theorem isOpenString_open (h : '\'' ∉ more) :
    Token.isOpenString
        { kind := .string, text := String.ofList ('\'' :: more), start, stop }
      = true := by
  have hlast : more.getLast? ≠ some '\'' :=
    fun hlast => h (List.mem_of_getLast? hlast)
  simpa [Token.isOpenString] using hlast

/-- A literal without its closing quote is the last that is read. -/
theorem open_or_not_of_munch
    (hmunch : munch c (more ++ rest) = (kind, more.length)) (start stop : Nat) :
    (kind = .string ∧ c = '\'' ∧ rest = [] ∧ '\'' ∉ more) ∨
      Token.isOpenString
          { kind, text := String.ofList (c :: more), start, stop } = false := by
  rcases apostrophes_of_munch hmunch
    with hopen | ⟨rfl, rfl, body, rfl, -⟩ | rfl | ⟨hstring, -, -⟩
  · exact Or.inl hopen
  · exact Or.inr (isOpenString_closed body)
  · exact Or.inr (isOpenString_of_kind (by decide))
  · exact Or.inr (isOpenString_of_kind hstring)

end

/-! ## Quotes and tokens -/

/-- All quotes outside quoted names come in pairs, but for the one that opens a
literal at the end. -/
theorem Lexes.count_apostrophes {offset : Nat} {text : Text} {ts : List Token}
    (h : Lexes offset text ts) :
    text.count '\'' % 2
      = (apostrophesInNames ts + (openString? ts).isSome.toNat) % 2 := by
  induction h with
  | done => rfl
  | @blank offset c cs ts hblank tail ih =>
    have hc : c ≠ '\'' := (isQuiet_iff.1 (isQuiet_of_isBlank hblank)).2.2
    rw [List.count_cons_of_ne hc, ih]
  | @token offset c more rest kind ts hblank hmunch tail ih =>
    have hcount : (c :: (more ++ rest)).count '\''
        = (c :: more).count '\'' + rest.count '\'' := by
      rw [← List.cons_append, List.count_append]
    rw [hcount, apostrophesInNames_cons]
    rcases apostrophes_of_munch hmunch with
      ⟨rfl, rfl, rfl, hmore⟩ | ⟨rfl, rfl, body, rfl, hbody⟩ | rfl
        | ⟨hstring, hname, hnone⟩
    · cases tail
      rw [openString?_singleton (isOpenString_open hmore), List.count_cons_self,
        List.count_eq_zero.2 hmore]
      rfl
    · have hpair : ('\'' :: (body ++ ['\''])).count '\'' = 2 := by
        simp [List.count_eq_zero.2 hbody]
      rw [openString?_cons_of_not_open (isOpenString_closed body), hpair,
        if_neg (by simp)]
      omega
    · rw [openString?_cons_of_not_open (isOpenString_of_kind (by decide)),
        if_pos rfl, String.toList_ofList]
      omega
    · rw [openString?_cons_of_not_open (isOpenString_of_kind hstring),
        List.count_eq_zero.2 hnone, if_neg hname]
      omega

/-- A literal at the end starts with the last quote. -/
theorem Lexes.openString_starts {offset : Nat} {text : Text} {ts : List Token}
    (h : Lexes offset text ts) {t : Token} (hopen : openString? ts = some t) :
    ∃ front body, text = front ++ '\'' :: body ∧ '\'' ∉ body ∧
      t.start = offset + width front := by
  induction h with
  | done => cases hopen
  | @blank offset c cs ts hblank tail ih =>
    obtain ⟨front, body, rfl, hbody, hstart⟩ := ih hopen
    exact ⟨c :: front, body, rfl, hbody,
      by rw [hstart, width_cons, Nat.add_assoc]⟩
  | @token offset c more rest kind ts hblank hmunch tail ih =>
    rcases open_or_not_of_munch hmunch offset (offset + width (c :: more))
      with ⟨rfl, rfl, rfl, hmore⟩ | hclosed
    · cases tail
      rw [openString?_singleton (isOpenString_open hmore)] at hopen
      cases hopen
      exact ⟨[], more, by simp, hmore, rfl⟩
    · rw [openString?_cons_of_not_open hclosed] at hopen
      obtain ⟨front, body, rfl, hbody, hstart⟩ := ih hopen
      exact ⟨(c :: more) ++ front, body, by simp, hbody,
        by rw [hstart, width_append, Nat.add_assoc]⟩

/-! ## The scanner at the end of the text -/

/-- Only a quote takes the scanner into a literal. -/
theorem Text.Mode.next_ne_string {mode : Mode} (hmode : mode ≠ .string)
    {c : Char} (hc : c ≠ '\'') (following : Option Char) :
    mode.next c following ≠ .string := by
  intro hnext
  by_cases hcomment : mode.inComment = true
  · rcases Mode.next_of_inComment hcomment c following with h | h
      <;> rw [hnext] at h <;> cases h
  cases mode with
  | code =>
    rcases Mode.next_code_cases c following
      with h | ⟨h, -⟩ | ⟨-, h⟩ | ⟨-, -, -, h⟩
    · rw [hnext] at h
      cases h
    · exact hc h
    · rw [hnext] at h
      cases h
    · rw [hnext] at h
      cases h
  | string => exact hmode rfl
  | quoted close =>
    rw [Mode.next] at hnext
    split at hnext <;> cases hnext
  | lineOpening | lineComment | blockOpening | blockComment | blockClosing =>
    exact hcomment rfl

theorem Text.Mode.run_ne_string {mode : Mode} (hmode : mode ≠ .string)
    {text : Text} (h : '\'' ∉ text) : mode.run text ≠ .string := by
  induction text generalizing mode with
  | nil => exact hmode
  | cons c cs ih =>
    simp only [List.mem_cons, not_or] at h
    exact ih (Mode.next_ne_string hmode (Ne.symm h.1) cs.head?) h.2

theorem Text.Mode.settled_eq_string_iff {mode : Mode} :
    mode.settled = .string ↔ mode = .string := by
  unfold Mode.settled
  split
  · rename_i hcomment
    constructor
    · intro h
      cases h
    · rintro rfl
      cases hcomment
  · exact Iff.rfl

/-- A literal that is open at the end is open at the end of the masked text. -/
theorem run_cleanFrom_eq_string_iff (text : Text) :
    Mode.code.run (cleanFrom .code text) = .string ↔
      Mode.code.run text = .string := by
  have hrun : Mode.code.run (cleanFrom .code text)
      = (Mode.code.run text).settled := run_maskFrom _ .code text
  rw [hrun]
  exact Mode.settled_eq_string_iff

theorem Tiles.eq_nil {offset : Nat} {ts : List Token}
    (h : Tiles offset [] ts) : ts = [] := by
  generalize htext : ([] : Text) = text at h
  cases h with
  | done => rfl
  | token nonempty =>
    have hlexeme :=
      (List.append_eq_nil_iff.1 (List.append_eq_nil_iff.1 htext.symm).2).1
    exact absurd hlexeme nonempty

/-- The scanner ends in a literal iff the tokens do. -/
theorem InStep.run_eq_string_iff {offset : Nat} {text : Text} {ts : List Token}
    (h : InStep offset text ts) :
    Mode.code.run text = .string ↔ (openString? ts).isSome = true := by
  induction h with
  | done => decide
  | @gap offset front blanks rest ts hclean hblanks hwidth hrun tail ih =>
    rw [← run_cleanFrom_eq_string_iff, hclean, Mode.run_code_blanks hblanks,
      run_cleanFrom_eq_string_iff, ih]
  | @token offset c first shown rest kind ts hblank hclean hmunch hwidth
      hverbatim hrun tail ih =>
    have hmasked : Mode.code.run (c :: (first ++ rest)) = .string ↔
        (Mode.code.next c (shown ++ cleanFrom .code rest).head?).run
            (shown ++ cleanFrom .code rest)
          = .string := by
      rw [← run_cleanFrom_eq_string_iff, hclean, Mode.run]
    rcases apostrophes_of_munch hmunch with
      ⟨rfl, rfl, hend, hshown⟩ | ⟨rfl, rfl, body, rfl, hbody⟩ | rfl
        | ⟨hstring, -, hnone⟩
    -- A literal without its closing quote: nothing stands behind it.
    · have hrest : rest = [] := by
        rw [← width_eq_zero, ← width_maskFrom .commentsAndStrings .code rest]
        exact congrArg width hend
      subst hrest
      have hlast : Mode.string.run (shown ++ []) = .string :=
        Mode.run_append_of_open (fun _ _ => rfl) hshown []
      rw [tail.tiles.eq_nil, openString?_singleton (isOpenString_open hshown),
        hmasked]
      exact iff_of_true hlast rfl
    · have hback : Mode.string.run (body ++ ['\''] ++ cleanFrom .code rest)
          = Mode.code.run (cleanFrom .code rest) :=
        Mode.run_append_of_closed (fun _ _ => rfl) hbody _
      rw [openString?_cons_of_not_open (isOpenString_closed body), ← ih,
        ← run_cleanFrom_eq_string_iff rest, ← hback]
      exact hmasked
    -- A quoted name, closed or not: the scanner is in no literal behind it.
    · have hquote := munch_of_quotedName (by rw [hmunch])
      have hlength : closedLength c (shown ++ cleanFrom .code rest)
          = shown.length := by
        rcases hquote with rfl | rfl <;> exact congrArg Prod.snd hmunch
      have hnext : ∀ following, Mode.code.next c following = .quoted c := by
        intro following
        rcases hquote with rfl | rfl <;> rfl
      rw [openString?_cons_of_not_open (isOpenString_of_kind (by decide)), ← ih,
        hmasked, hnext, ← run_cleanFrom_eq_string_iff rest]
      rcases closedLength_eq_length_cases hlength
        with ⟨body, rfl, hbody⟩ | ⟨hend, hopen⟩
      · rw [Mode.run_append_of_closed (fun _ _ => rfl) hbody]
      · rw [Mode.run_append_of_open (fun _ _ => rfl) hopen, hend]
        exact iff_of_false (by simp [Mode.run]) (by decide)
    · rw [openString?_cons_of_not_open (isOpenString_of_kind hstring), ← ih]
      rcases hrun with hcode | rfl
      · rw [hcode]
      · rw [hverbatim hstring] at hnone
        rw [List.append_nil]
        exact iff_of_false (Mode.run_ne_string (by decide) hnone) (by decide)

/-! ## The check -/

namespace Finding

/-- A quote is open behind an odd number of quotes. -/
theorem isSome_openAfter (opened : Option Nat) (offset : Nat) (text : Text) :
    (openAfter opened offset text).isSome.toNat
      = (opened.isSome.toNat + text.count '\'') % 2 := by
  induction text generalizing opened offset with
  | nil => cases opened <;> rfl
  | cons c cs ih =>
    rw [openAfter, ih]
    by_cases hc : c = '\''
    · rw [hc, List.count_cons_self]
      cases opened with
      | none =>
        show (1 + cs.count '\'') % 2 = (0 + (cs.count '\'' + 1)) % 2
        omega
      | some o =>
        show (0 + cs.count '\'') % 2 = (1 + (cs.count '\'' + 1)) % 2
        omega
    · rw [List.count_cons_of_ne hc, if_neg (by simpa using hc)]

/-- If a quote is open, it is the last one. -/
theorem openAfter_last (offset : Nat) (front : Text) {body : Text}
    (h : '\'' ∉ body) :
    openAfter none offset (front ++ '\'' :: body)
      = if (openAfter none offset front).isSome then none
        else some (offset + width front) := by
  rw [openAfter_append, openAfter, openAfter_of_no_quote h]
  exact if_pos rfl

theorem unclosedStrings_eq {text : Text} (h : '\\' ∉ text) :
    unclosedStrings text
      = (openAfter none 0 text.sanitize).toList.map fun offset =>
        locate text offset 1 .unclosedString := by
  rw [unclosedStrings, openQuote_maskComments h]
  cases openAfter none 0 text.sanitize <;> rfl

theorem unclosedStrings_ne_nil_iff {text : Text} (h : '\\' ∉ text) :
    unclosedStrings text ≠ [] ↔
      (openAfter none 0 text.sanitize).isSome = true := by
  rw [unclosedStrings_eq h]
  cases openAfter none 0 text.sanitize <;> simp

/-- The check is off by the apostrophes in quoted names. -/
theorem isSome_openAfter_tokens (text : Text) :
    (openAfter none 0 text).isSome.toNat
      = (apostrophesInNames (tokenize text)
          + (openString? (tokenize text)).isSome.toNat) % 2 := by
  rw [isSome_openAfter, ← (lexes_tokenize text).count_apostrophes]
  exact congrArg (· % 2) (Nat.zero_add _)

theorem openAfter_of_even {text : Text}
    (h : apostrophesInNames (tokenize text) % 2 = 0) :
    openAfter none 0 text = (openString? (tokenize text)).map Token.start := by
  have hparity := isSome_openAfter_tokens text
  cases hopen : openString? (tokenize text) with
  | none =>
    rw [hopen] at hparity
    cases hquote : openAfter none 0 text with
    | none => rfl
    | some offset =>
      rw [hquote] at hparity
      have hcount : 1 = (apostrophesInNames (tokenize text) + 0) % 2 := hparity
      omega
  | some t =>
    obtain ⟨front, body, htext, hbody, hstart⟩ :=
      (lexes_tokenize text).openString_starts hopen
    rw [hopen, htext, openAfter_last 0 front hbody] at hparity
    rw [htext, openAfter_last 0 front hbody, Option.map_some, hstart]
    by_cases hbefore : (openAfter none 0 front).isSome = true
    · rw [if_pos hbefore, ← htext] at hparity
      have hcount : 0 = (apostrophesInNames (tokenize text) + 1) % 2 := hparity
      omega
    · exact if_neg hbefore

theorem openAfter_of_odd {text : Text}
    (h : apostrophesInNames (tokenize text) % 2 = 1) :
    (openAfter none 0 text).isSome = !(openString? (tokenize text)).isSome := by
  have hparity := isSome_openAfter_tokens text
  revert hparity
  cases (openAfter none 0 text).isSome
    <;> cases (openString? (tokenize text)).isSome <;> simp <;> omega

/-- What is reported is the literal that the tokens leave open, if any. -/
def ReportsOpenString (text : Text) : Prop :=
  unclosedStrings text
    = (openString? (tokenize text.sanitize)).toList.map fun t =>
      locate text t.start 1 .unclosedString

/-- In a text without backslashes the tokens end in an open literal iff the
scanner does. The check reports just that literal iff an even number of
apostrophes stands in quoted names; else it reports a literal exactly when
none is open. -/
theorem open_strings_are_reported_iff {text : Text} (h : '\\' ∉ text) :
    (Mode.code.run text = .string ↔
        (openString? (tokenize text.sanitize)).isSome = true) ∧
      (ReportsOpenString text ↔
        apostrophesInNames (tokenize text.sanitize) % 2 = 0) ∧
      (apostrophesInNames (tokenize text.sanitize) % 2 = 1 →
        (unclosedStrings text ≠ [] ↔
          openString? (tokenize text.sanitize) = none)) := by
  have hodd : apostrophesInNames (tokenize text.sanitize) % 2 = 1 →
      (unclosedStrings text ≠ [] ↔
        openString? (tokenize text.sanitize) = none) := by
    intro hodd
    rw [unclosedStrings_ne_nil_iff h, openAfter_of_odd hodd]
    cases openString? (tokenize text.sanitize) <;> simp
  refine ⟨(inStep_cleanFrom 0 text).run_eq_string_iff, ⟨?_, ?_⟩, hodd⟩
  · intro hreports
    rcases Nat.mod_two_eq_zero_or_one
        (apostrophesInNames (tokenize text.sanitize)) with heven | hcount
    · exact heven
    · have hwrong := hodd hcount
      rw [hreports] at hwrong
      cases hopen : openString? (tokenize text.sanitize)
        <;> simp [hopen] at hwrong
  · intro heven
    rw [ReportsOpenString, unclosedStrings_eq h, openAfter_of_even heven]
    cases openString? (tokenize text.sanitize) <;> rfl

/-- A name with two apostrophes, a comment with one and an open literal. -/
def possessiveQuery : Text :=
  "SELECT \"o'clock's\" -- it's\nFROM t WHERE a = 'ab".toList

theorem open_strings_are_reported_possessiveQuery :
    '\\' ∉ possessiveQuery ∧
      apostrophesInNames (tokenize possessiveQuery.sanitize) = 2 ∧
      Mode.code.run possessiveQuery = .string ∧
      unclosedStrings possessiveQuery
        = [locate possessiveQuery 44 1 .unclosedString] := by
  have hplain : '\\' ∉ possessiveQuery := by decide +kernel
  have hnames : apostrophesInNames (tokenize possessiveQuery.sanitize) = 2 := by
    decide +kernel
  have hstart : (openString? (tokenize possessiveQuery.sanitize)).map
        Token.start
      = some 44 := by decide +kernel
  obtain ⟨t, hopen, hstart⟩ := Option.map_eq_some_iff.1 hstart
  obtain ⟨hscanner, hreports, -⟩ := open_strings_are_reported_iff hplain
  refine ⟨hplain, hnames, hscanner.2 (by rw [hopen]; rfl), ?_⟩
  rw [hreports.2 (by rw [hnames]), hopen, ← hstart]
  rfl

/-- A quoted name with one apostrophe. -/
def possessiveName : Text := "SELECT \"it's\" FROM t".toList

/-- The apostrophe of a quoted name is reported though no literal is open. -/
theorem closed_text_is_reported_possessiveName :
    '\\' ∉ possessiveName ∧ Mode.code.run possessiveName = .code ∧
      openString? (tokenize possessiveName.sanitize) = none ∧
      unclosedStrings possessiveName
        = [locate possessiveName 10 1 .unclosedString] ∧
      ¬ ReportsOpenString possessiveName := by
  have hnone : openString? (tokenize possessiveName.sanitize) = none := by
    decide +kernel
  have hreported : unclosedStrings possessiveName
      = [locate possessiveName 10 1 .unclosedString] := by
    have hquote : openQuote none none 0 possessiveName.maskComments
        = some 10 := by decide +kernel
    rw [unclosedStrings, hquote]
  refine ⟨by decide +kernel, by decide +kernel, hnone, hreported, ?_⟩
  intro hreports
  rw [ReportsOpenString, hreported, hnone] at hreports
  cases hreports

end Finding

end QueryAssist
