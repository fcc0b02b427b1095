import QueryAssist.Proofs.Text.Masking
import QueryAssist.Proofs.Text.Range
import QueryAssist.Token.Lexer

/-!
# Tokens of a masked text

Tokens are read from the masked copy of a text and used on the text itself. The
scanner that masks and the reader of tokens go in step: between two tokens the
scanner is in code or in a comment, and a token that opens a literal or a quoted
name ends where the scanner comes back to code. So the tokens of the copy tile
the text: each covers whole characters of it, one after the other, and all but
the string literals have the characters they cover as their text.
-/

namespace QueryAssist

open Text

/-! ## Where a token ends

Each lemma of this section says of one way to go on with a token that the
characters it takes from the masked text are the masked form of a first part of
the text, and that the scanner is in code after that part. -/

/-- The first `count` characters of the masked text are the masked form of a
first part of `text`, at the end of which the scanner is in code unless the text
ends there; `verbatim` tells whether they are that part unchanged. -/
def CutsAt (mode : Mode) (text : Text) (count : Nat) (verbatim : Prop) : Prop :=
  ∃ shown first rest, text = first ++ rest ∧
    cleanFrom mode text = shown ++ cleanFrom .code rest ∧ shown.length = count ∧
    width shown = width first ∧ (verbatim → shown = first) ∧
    (mode.run text = Mode.code.run rest ∨ rest = [])

namespace CutsAt

variable {text : Text} {count : Nat} {verbatim : Prop}

theorem zero (text : Text) (verbatim : Prop) : CutsAt .code text 0 verbatim :=
  ⟨[], [], text, rfl, rfl, rfl, rfl, fun _ => rfl, Or.inl rfl⟩

/-- Plain characters in front are taken over one by one. -/
theorem plain_append {first : Text} (h : ∀ c ∈ first, isPlain c = true)
    (hcut : CutsAt .code text count verbatim) :
    CutsAt .code (first ++ text) (first.length + count) verbatim := by
  induction first with
  | nil => simpa using hcut
  | cons c cs ih =>
    obtain ⟨shown, front, rest, heq, hclean, hlen, hwidth, hverb, hrun⟩ :=
      ih fun d hd => h d (by simp [hd])
    refine ⟨c :: shown, c :: front, rest, by simp [heq], ?_,
      by simp [hlen]; omega, by simp [hwidth], ?_, ?_⟩
    · rw [List.cons_append, cleanFrom_code_of_isPlain (h c (by simp)), hclean,
        List.cons_append]
    · intro hv
      rw [hverb hv]
    · rwa
        [List.cons_append, Mode.run, Mode.next_code_of_isPlain (h c (by simp))]

end CutsAt

/-- A run of plain characters ends at the same place in the masked text as in
the text, because no blank continues it. -/
theorem takeWhile_cleanFrom {p : Char → Bool}
    (hplain : ∀ c, p c = true → isPlain c = true)
    (hblank : ∀ c, isBlank c = true → p c = false) (text : Text) :
    ∃ run rest, text = run ++ rest ∧
      cleanFrom .code text = run ++ cleanFrom .code rest ∧
      (cleanFrom .code text).takeWhile p = run := by
  induction text with
  | nil => exact ⟨[], [], rfl, rfl, rfl⟩
  | cons c cs ih =>
    rcases hp : p c with _ | _
    · refine ⟨[], c :: cs, rfl, rfl, ?_⟩
      rcases hclean : cleanFrom .code (c :: cs) with _ | ⟨d, rest⟩
      · rfl
      · rcases hd : isBlank d with _ | _
        · obtain ⟨_, heq, -⟩ := cons_of_cleanFrom_code hclean hd
          obtain ⟨rfl, -⟩ := List.cons.inj heq
          simp [hp]
        · simp [hblank d hd]
    · obtain ⟨run, rest, htext, hclean, hrun⟩ := ih
      rw [cleanFrom_code_of_isPlain (hplain c hp)]
      exact ⟨c :: run, rest, by rw [htext, List.cons_append],
        by rw [hclean, List.cons_append],
        by rw [List.takeWhile_cons_of_pos hp, hrun]⟩

/-- A run of plain characters cuts at its end. -/
theorem cutsAt_run {p : Char → Bool}
    (hplain : ∀ c, p c = true → isPlain c = true)
    (hblank : ∀ c, isBlank c = true → p c = false) (text : Text)
    (verbatim : Prop) :
    CutsAt .code text ((cleanFrom .code text).takeWhile p).length verbatim := by
  obtain ⟨run, rest, rfl, -, hrun⟩ := takeWhile_cleanFrom hplain hblank text
  have hfirst : ∀ c ∈ run, isPlain c = true := by
    intro c hc
    rw [← hrun] at hc
    exact hplain c (List.all_eq_true.1 List.all_takeWhile c hc)
  rw [hrun]
  exact CutsAt.plain_append hfirst (CutsAt.zero rest verbatim)

theorem cutsAt_wordRun (text : Text) (verbatim : Prop) :
    CutsAt .code text (wordRun (cleanFrom .code text)) verbatim :=
  cutsAt_run (fun _ => isPlain_of_isWordChar) (fun _ => isWordChar_of_isBlank)
    text verbatim

theorem cutsAt_digitRun (text : Text) (verbatim : Prop) :
    CutsAt .code text (digitRun (cleanFrom .code text)) verbatim :=
  cutsAt_run (fun _ => isPlain_of_isDigit) (fun _ => isDigit_of_isBlank)
    text verbatim

theorem cutsAt_numberRun (text : Text) (verbatim : Prop) :
    CutsAt .code text (numberRun (cleanFrom .code text)) verbatim := by
  obtain ⟨run, rest, rfl, hclean, hrun⟩ :=
    takeWhile_cleanFrom (fun _ => isPlain_of_isDigit)
      (fun _ => isDigit_of_isBlank) text
  have hwhole : digitRun (cleanFrom .code (run ++ rest)) = run.length := by
    rw [digitRun, hrun]
  have hdigits : ∀ c ∈ run, c.isDigit = true := by
    rw [← hrun]
    exact List.all_eq_true.1 List.all_takeWhile
  have hdrop : (cleanFrom .code (run ++ rest)).drop run.length
      = cleanFrom .code rest := by
    rw [hclean, List.drop_left]
  simp only [numberRun, hwhole, hdrop]
  have hcut : CutsAt .code (run ++ rest) run.length verbatim := by
    rw [← hwhole]
    exact cutsAt_digitRun _ verbatim
  split
  · rename_i d tail hpoint
    split
    · rename_i hd
      -- the point and the digit after it stand in the text, so the fraction is
      -- a second run
      obtain ⟨cs, rfl, hcs⟩ :=
        cons_of_cleanFrom_code_of_isPlain hpoint (by decide) (by decide)
      have hdBlank : isBlank d = false := by
        rcases hb : isBlank d with _ | _
        · rfl
        · rw [isDigit_of_isBlank hb] at hd
          cases hd
      obtain ⟨ds, rfl, rfl⟩ :=
        cons_of_cleanFrom_code_of_isPlain hcs.symm hdBlank
          (isPlain_of_isDigit hd)
      have hfirst : ∀ c ∈ run ++ ['.', d], isPlain c = true := by
        intro c hc
        rcases List.mem_append.1 hc with hc | hc
        · exact isPlain_of_isDigit (hdigits c hc)
        · simp only [List.mem_cons, List.not_mem_nil, or_false] at hc
          rcases hc with rfl | rfl
          · decide
          · exact isPlain_of_isDigit hd
      have := CutsAt.plain_append hfirst (cutsAt_digitRun ds verbatim)
      simpa using this
    · exact hcut
  · exact hcut

theorem closedLength_append {close : Char} {first : Text}
    (h : ∀ c ∈ first, c ≠ close) (rest : Text) :
    closedLength close (first ++ rest)
      = first.length + closedLength close rest := by
  induction first with
  | nil => simp
  | cons c cs ih =>
    have hc : (c == close) = false := by simpa using h c (by simp)
    rw [List.cons_append, closedLength, hc, ih fun d hd => h d (by simp [hd])]
    simp only [Bool.false_eq_true, if_false, List.length_cons]
    omega

/-- A string literal ends where the scanner leaves it; masked characters
hold no quote. -/
theorem cutsAt_string (text : Text) :
    CutsAt .string text (closedLength '\'' (cleanFrom .string text)) False := by
  induction text with
  | nil => exact ⟨[], [], [], rfl, rfl, rfl, rfl, fun _ => rfl, Or.inr rfl⟩
  | cons c cs ih =>
    by_cases hc : c = '\''
    · subst hc
      exact ⟨['\''], ['\''], cs, rfl, rfl, rfl, rfl, fun _ => rfl, Or.inl rfl⟩
    · obtain ⟨shown, first, rest, rfl, hclean, hlen, hwidth, -, hrun⟩ := ih
      have hmasked : cleanFrom .string (c :: (first ++ rest))
          = blankOut c ++ cleanFrom .string (first ++ rest) := by
        simp [cleanFrom, maskFrom, Mode.next, hc, Masking.hides]
      have hquote : ∀ b ∈ blankOut c, b ≠ '\'' := by
        rintro b hb rfl
        exact absurd (blankOut_isBlank c _ hb) (by decide)
      have hnext : Mode.string.next c (first ++ rest).head? = .string := by
        simp [Mode.next, hc]
      refine ⟨blankOut c ++ shown, c :: first, rest, rfl, ?_, ?_, ?_,
        False.elim, by rwa [Mode.run, hnext]⟩
      · rw [hmasked, hclean, List.append_assoc]
      · rw [hmasked, closedLength_append hquote, List.length_append, hlen]
      · rw [width_append, width_blankOut, width_cons, hwidth]

/-- A quoted name ends where the scanner leaves it. -/
theorem cutsAt_quoted (close : Char) (text : Text) (verbatim : Prop) :
    CutsAt (.quoted close) text
      (closedLength close (cleanFrom (.quoted close) text)) verbatim := by
  induction text with
  | nil => exact ⟨[], [], [], rfl, rfl, rfl, rfl, fun _ => rfl, Or.inr rfl⟩
  | cons c cs ih =>
    have hnext : (Mode.quoted close).run (c :: cs)
        = (if c == close then .code else .quoted close : Mode).run cs := rfl
    have hkept : cleanFrom (.quoted close) (c :: cs)
        = c :: cleanFrom (if c == close then .code else .quoted close) cs := by
      simp [cleanFrom, maskFrom, Mode.next, Masking.hides, Mode.inComment]
    rw [hkept, closedLength]
    by_cases hc : (c == close) = true
    · rw [if_pos hc] at hkept hnext ⊢
      exact ⟨[c], [c], cs, rfl, hkept, rfl, rfl, fun _ => rfl, Or.inl hnext⟩
    · rw [if_neg hc] at hkept hnext
      rw [if_neg hc, if_neg hc]
      obtain ⟨shown, first, rest, rfl, hclean, hlen, hwidth, hverb, hrun⟩ := ih
      refine ⟨c :: shown, c :: first, rest, rfl, ?_, ?_, ?_, ?_, by rwa [hnext]⟩
      · rw [hkept, hclean, List.cons_append]
      · rw [List.length_cons, hlen]
      · rw [width_cons, width_cons, hwidth]
      · intro hv
        rw [hverb hv]

/-- A token that opens neither a literal nor a quoted name is made of plain
characters after its first. -/
theorem cutsAt_munch_code {c : Char} (hs : c ≠ '\'') (hd : c ≠ '"')
    (hb : c ≠ '\x60') (text : Text) (verbatim : Prop) :
    CutsAt .code text (munch c (cleanFrom .code text)).2 verbatim := by
  fun_cases munch c (cleanFrom .code text)
  case case8 h => exact absurd (by simpa using h) hs
  case case9 h =>
    rcases (by simpa using h : c = '"' ∨ c = '\x60') with h | h
    · exact absurd h hd
    · exact absurd h hb
  case case10 => exact cutsAt_wordRun text verbatim
  case case11 hcolon =>
    simp only [Bool.and_eq_true, beq_iff_eq] at hcolon
    obtain ⟨tail, htail⟩ := List.head?_eq_some_iff.1 hcolon.2
    obtain ⟨cs, rfl, -⟩ :=
      cons_of_cleanFrom_code_of_isPlain htail (by decide) (by decide)
    have hcolons : ∀ d ∈ [':'], isPlain d = true := by
      intro d hd
      rw [List.mem_singleton.1 hd]
      decide
    exact CutsAt.plain_append hcolons (CutsAt.zero cs verbatim)
  case case12 => exact cutsAt_numberRun text verbatim
  case case13 => exact cutsAt_wordRun text verbatim
  all_goals exact CutsAt.zero text verbatim

/-- A token that starts in code ends in code, and unless it is a string literal
it shows the characters of the text. -/
theorem cutsAt_munch {c : Char} {text : Text}
    (h : (Mode.code.next c text.head?).inComment = false) :
    let clean := cleanFrom (Mode.code.next c text.head?) text
    CutsAt (Mode.code.next c text.head?) text (munch c clean).2
      ((munch c clean).1 ≠ .string) := by
  intro clean
  rcases Mode.next_code_cases c text.head?
    with hm | ⟨rfl, hm⟩ | ⟨hq, hm⟩ | ⟨hs, hd, hb, hm⟩
  · rw [hm] at h
    cases h
  · have hmunch : munch '\'' clean = (.string, closedLength '\'' clean) := rfl
    rw [hmunch]
    simp only [clean, hm, ne_eq, not_true_eq_false]
    exact cutsAt_string text
  · have hmunch : munch c clean = (.quotedName, closedLength c clean) := by
      rcases hq with rfl | rfl <;> rfl
    rw [hmunch]
    simp only [clean, hm]
    exact cutsAt_quoted c text _
  · simp only [clean, hm]
    exact cutsAt_munch_code hs hd hb text _

/-! ## Reading on -/

theorem tokensFrom_blanks {blanks : Text} (h : ∀ c ∈ blanks, isBlank c = true)
    (offset : Nat) (rest : Text) :
    tokensFrom 0 offset (blanks ++ rest)
      = tokensFrom 0 (offset + width blanks) rest := by
  induction blanks generalizing offset with
  | nil => rfl
  | cons c cs ih =>
    rw [List.cons_append, tokensFrom, if_pos (h c (by simp)),
      ih (fun d hd => h d (by simp [hd])), width_cons, Nat.add_assoc]

theorem tokensFrom_skip (taken : Text) (offset : Nat) (rest : Text) :
    tokensFrom taken.length offset (taken ++ rest)
      = tokensFrom 0 (offset + width taken) rest := by
  induction taken generalizing offset with
  | nil => rfl
  | cons c cs ih =>
    rw [List.cons_append, List.length_cons, tokensFrom, ih, width_cons,
      Nat.add_assoc]

/-- A comment is blank in the masked text, up to where the scanner comes
back to code. -/
theorem cleanFrom_of_inComment {mode : Mode} (h : mode.inComment = true)
    (text : Text) :
    ∃ comment blanks rest, text = comment ++ rest ∧
      cleanFrom mode text = blanks ++ cleanFrom .code rest ∧
      (∀ b ∈ blanks, isBlank b = true) ∧ width blanks = width comment ∧
      (mode.run text = Mode.code.run rest ∨ rest = []) := by
  induction text generalizing mode with
  | nil => exact ⟨[], [], [], rfl, rfl, by simp, rfl, Or.inr rfl⟩
  | cons c cs ih =>
    rw [cleanFrom_comment h, Mode.run]
    rcases Mode.next_of_inComment h c cs.head? with hnext | hcode
    · obtain ⟨comment, blanks, rest, hcs, hclean, hblanks, hwidth, hrun⟩ :=
        ih hnext
      refine ⟨c :: comment, blankOut c ++ blanks, rest,
        by rw [hcs, List.cons_append], ?_, ?_, ?_, hrun⟩
      · rw [hclean, List.append_assoc]
      · intro b hb
        rcases List.mem_append.1 hb with hin | hin
        · exact blankOut_isBlank c b hin
        · exact hblanks b hin
      · rw [width_append, width_blankOut, width_cons, hwidth]
    · rw [hcode]
      exact ⟨[c], blankOut c, cs, rfl, rfl, blankOut_isBlank c,
        by simp [width_blankOut], Or.inl rfl⟩

/-! ## In step -/

/-- The scanner and the reader of tokens go over `text`, which starts at
`offset`, together. In a gap the masked text is blank; a token takes `shown` of
the masked text for `first` of the text. After each of them the scanner is in
code, unless the text ends there. -/
inductive InStep : Nat → Text → List Token → Prop
  | done (offset : Nat) : InStep offset [] []
  | gap {offset : Nat} {front blanks rest : Text} {ts : List Token}
      (hclean :
        cleanFrom .code (front ++ rest) = blanks ++ cleanFrom .code rest)
      (hblanks : ∀ b ∈ blanks, isBlank b = true)
      (hwidth : width blanks = width front)
      (hrun : Mode.code.run (front ++ rest) = Mode.code.run rest ∨ rest = [])
      (tail : InStep (offset + width front) rest ts) :
      InStep offset (front ++ rest) ts
  | token {offset : Nat} {c : Char} {first shown rest : Text} {kind : TokenKind}
      {ts : List Token} (hblank : isBlank c = false)
      (hclean : cleanFrom .code (c :: (first ++ rest))
        = c :: (shown ++ cleanFrom .code rest))
      (hmunch : munch c (shown ++ cleanFrom .code rest) = (kind, shown.length))
      (hwidth : width shown = width first)
      (hverbatim : kind ≠ .string → shown = first)
      (hrun :
        Mode.code.run (c :: (first ++ rest)) = Mode.code.run rest ∨ rest = [])
      (tail : InStep (offset + width (c :: first)) rest ts) :
      InStep offset (c :: (first ++ rest))
        ({ kind, text := String.ofList (c :: shown), start := offset,
           stop := offset + width (c :: shown) } :: ts)

/-- The tokens of a masked text are read in step with the scanner. -/
theorem inStep_cleanFrom (offset : Nat) (text : Text) :
    InStep offset text (tokensFrom 0 offset (cleanFrom .code text)) := by
  match text with
  | [] => exact .done _
  | c :: cs =>
    by_cases hcomment : (Mode.code.next c cs.head?).inComment = true
    -- A comment is a gap up to where the scanner is back in code.
    · obtain ⟨comment, blanks, rest, hcs, hclean, hblanks, hwidth, hrun⟩ :=
        cleanFrom_of_inComment hcomment cs
      have : rest.length < (c :: cs).length := by
        rw [hcs]
        simp only [List.length_cons, List.length_append]
        omega
      have hfront : width (blankOut c ++ blanks) = width (c :: comment) := by
        rw [width_append, width_blankOut, width_cons, hwidth]
      have hall : ∀ b ∈ blankOut c ++ blanks, isBlank b = true := by
        intro b hb
        rcases List.mem_append.1 hb with hin | hin
        · exact blankOut_isBlank c b hin
        · exact hblanks b hin
      have htext : c :: cs = (c :: comment) ++ rest := by rw [hcs]; rfl
      have hmasked : cleanFrom .code (c :: cs)
          = (blankOut c ++ blanks) ++ cleanFrom .code rest := by
        rw [cleanFrom_code_hidden hcomment, hclean, List.append_assoc]
      rw [hmasked, tokensFrom_blanks hall, hfront, htext]
      exact .gap (htext ▸ hmasked) hall hfront
        (by rw [← htext, Mode.run]; exact hrun) (inStep_cleanFrom _ rest)
    · have hkept : (Mode.code.next c cs.head?).inComment = false := by
        simpa using hcomment
      by_cases hblank : isBlank c = true
      · have hnext :=
          Mode.next_code_of_isPlain (isPlain_of_isBlank hblank) cs.head?
        have hclean : cleanFrom .code ([c] ++ cs) = [c] ++ cleanFrom .code cs :=
          cleanFrom_code_of_isPlain (isPlain_of_isBlank hblank) cs
        have htail := inStep_cleanFrom (offset + width [c]) cs
        rw [← tokensFrom_blanks (by simpa using hblank), ← hclean] at htail
        exact .gap hclean (by simpa using hblank) rfl
          (Or.inl (by rw [List.singleton_append, Mode.run, hnext])) htail
      -- A token takes `shown` of the copy and `first` of the text, which are
      -- equally wide; reading goes on behind both.
      · obtain ⟨shown, first, rest, hcs, hclean, hlen, hwidth, hverb, hrun⟩ :=
          cutsAt_munch hkept
        have : rest.length < (c :: cs).length := by
          rw [hcs]
          simp only [List.length_cons, List.length_append]
          omega
        have hmasked : cleanFrom .code (c :: cs)
            = c :: (shown ++ cleanFrom .code rest) := by
          rw [cleanFrom_code_kept hkept, hclean]
        rw [hclean] at hlen hverb
        have htail := inStep_cleanFrom (offset + width (c :: first)) rest
        have hstop : offset + c.utf8Size + width shown
            = offset + width (c :: first) := by
          rw [width_cons, hwidth, Nat.add_assoc]
        rw [hmasked, tokensFrom, if_neg hblank]
        simp only [← hlen, List.take_left, tokensFrom_skip, hstop]
        subst hcs
        exact .token (by simpa using hblank) hmasked (Prod.ext rfl hlen.symm)
          hwidth hverb hrun htail
termination_by text.length

/-! ## Tilings -/

/-- The tokens cover parts of `text`, which starts at `offset`, one after the
other; each part is not empty, and unless its token is a string literal it is
the token's text. -/
inductive Tiles : Nat → Text → List Token → Prop
  | done (offset : Nat) (text : Text) : Tiles offset text []
  | token {offset : Nat} {gap lexeme rest : Text} {t : Token} {ts : List Token}
      (nonempty : lexeme ≠ []) (start : t.start = offset + width gap)
      (stop : t.stop = t.start + width lexeme)
      (spelled : t.kind ≠ .string → t.text.toList = lexeme)
      (tail : Tiles t.stop rest ts) :
      Tiles offset (gap ++ (lexeme ++ rest)) (t :: ts)

/-- A gap in front of a text moves its tokens on. -/
theorem Tiles.gap {offset : Nat} {text : Text} {ts : List Token} (front : Text)
    (h : Tiles (offset + width front) text ts) :
    Tiles offset (front ++ text) ts := by
  cases h with
  | done => exact .done _ _
  | @token _ gap lexeme rest t ts nonempty start stop spelled tail =>
    rw [← List.append_assoc]
    exact .token nonempty (by rw [start, width_append, Nat.add_assoc]) stop
      spelled tail

theorem InStep.tiles {offset : Nat} {text : Text} {ts : List Token}
    (h : InStep offset text ts) : Tiles offset text ts := by
  induction h with
  | done => exact .done _ _
  | gap _ _ _ _ _ ih => exact ih.gap _
  | @token offset c first shown rest kind ts _ _ _ hwidth hverbatim _ _ ih =>
    have hstop : offset + width (c :: shown) = offset + width (c :: first) := by
      rw [width_cons, width_cons, hwidth]
    show Tiles offset ([] ++ ((c :: first) ++ rest)) _
    refine .token (by simp) rfl hstop ?_ ?_
    · intro hkind
      rw [String.toList_ofList, hverbatim hkind]
    · simpa only [hstop] using ih

/-! ## Aligned tokens -/

/-- Tokens that stand in a text one after the other, each on whole characters
and, unless it is a string literal, with those characters as its text. -/
structure Aligned (text : Text) (tokens : List Token) : Prop where
  range : ∀ t ∈ tokens, text.IsRange t.start t.stop
  spelled : ∀ t ∈ tokens,
    t.kind ≠ .string → text.slice t.start t.stop = t.text.toList
  ordered : tokens.Pairwise (·.stop ≤ ·.start)

theorem Tiles.start_le {offset : Nat} {text : Text} {ts : List Token}
    (h : Tiles offset text ts) : ∀ t ∈ ts, offset ≤ t.start := by
  induction h with
  | done => simp
  | @token offset gap lexeme rest t ts nonempty start stop spelled tail ih =>
    intro u hu
    rcases List.mem_cons.1 hu with rfl | hu
    · omega
    · have := ih u hu
      omega

theorem Tiles.aligned {offset : Nat} {text : Text} {ts : List Token}
    (h : Tiles offset text ts) (front : Text)
    (hfront : width front = offset) : Aligned (front ++ text) ts := by
  induction h generalizing front with
  | done => exact ⟨by simp, by simp, List.Pairwise.nil⟩
  | @token offset gap lexeme rest t ts nonempty start stop spelled tail ih =>
    have hstart : width (front ++ gap) = t.start := by
      rw [width_append, hfront, start]
    have hstop : width (front ++ gap) + width lexeme = t.stop := by
      rw [hstart, stop]
    have htext : front ++ (gap ++ (lexeme ++ rest))
        = (front ++ gap) ++ (lexeme ++ rest) := by
      rw [List.append_assoc]
    have haligned : Aligned (front ++ (gap ++ (lexeme ++ rest))) ts := by
      have := ih ((front ++ gap) ++ lexeme) (by rw [width_append, hstop])
      rwa [List.append_assoc, List.append_assoc] at this
    refine ⟨?_, ?_, List.pairwise_cons.2 ⟨tail.start_le, haligned.ordered⟩⟩
    · intro u hu
      rcases List.mem_cons.1 hu with rfl | hu
      · rw [htext, ← hstart, ← hstop]
        exact IsRange.of_parts nonempty
      · exact haligned.range u hu
    · intro u hu hkind
      rcases List.mem_cons.1 hu with rfl | hu
      · rw [htext, ← hstop, ← hstart, slice_parts, spelled hkind]
      · exact haligned.spelled u hu hkind

namespace Aligned

variable {text : Text} {tokens : List Token}

theorem sublist {fewer : List Token} (h : Aligned text tokens)
    (hsub : fewer.Sublist tokens) : Aligned text fewer where
  range t ht := h.range t (hsub.subset ht)
  spelled t ht := h.spelled t (hsub.subset ht)
  ordered := h.ordered.sublist hsub

/-- From the first token to the last one there are whole characters. -/
theorem range_all (h : Aligned text tokens) (hne : tokens ≠ []) :
    text.IsRange (tokens.head hne).start (tokens.getLast hne).stop := by
  have hfirst := h.range _ (List.head_mem hne)
  have hlast := h.range _ (List.getLast_mem hne)
  refine hfirst.join hlast ?_
  cases tokens with
  | nil => exact absurd rfl hne
  | cons t ts =>
    cases ts with
    | nil => exact Nat.le_refl _
    | cons u us =>
      rw [List.getLast_cons (by simp : u :: us ≠ [])]
      have hmem := List.getLast_mem (by simp : u :: us ≠ [])
      have hle := (List.pairwise_cons.1 h.ordered).1 _ hmem
      have := (h.range _ (List.mem_cons_of_mem t hmem)).lt
      exact Nat.le_trans hle (Nat.le_of_lt this)

end Aligned

/-- The tokens of a text are aligned with it. -/
theorem aligned_tokenize (text : Text) :
    Aligned text (tokenize text.sanitize) :=
  (inStep_cleanFrom 0 text).tiles.aligned [] rfl

/-! ## Marks -/

/-- Every token starts at a character that is not blank, where it is read, and
has what belongs to it as its text. -/
theorem mem_tokensFrom {skip : Nat} {front text : Text} {t : Token}
    (h : t ∈ tokensFrom skip (width front) text) :
    ∃ a c rest, front ++ text = a ++ c :: rest ∧ width a = t.start ∧
      isBlank c = false ∧ (munch c rest).1 = t.kind ∧
      t.text = String.ofList (c :: rest.take (munch c rest).2) := by
  induction text generalizing skip front with
  | nil => simp [tokensFrom] at h
  | cons c cs ih =>
    have hassoc : front ++ c :: cs = (front ++ [c]) ++ cs := by simp
    have hwidth : width front + c.utf8Size = width (front ++ [c]) := by simp
    cases skip with
    | succ n =>
      rw [tokensFrom, hwidth] at h
      rw [hassoc]
      exact ih h
    | zero =>
      rw [tokensFrom, hwidth] at h
      split at h
      · rw [hassoc]
        exact ih h
      · rename_i hblank
        rcases List.mem_cons.1 h with rfl | h
        · exact ⟨front, c, cs, rfl, rfl, by simpa using hblank, rfl, rfl⟩
        · rw [hassoc]
          exact ih h

/-- The character that every token of the kind is, if there is one. -/
def TokenKind.mark? : TokenKind → Option Char
  | .comma => some ','
  | .dot => some '.'
  | .leftParen => some '('
  | .rightParen => some ')'
  | .semicolon => some ';'
  | .star => some '*'
  | _ => none

theorem munch_of_mark {c m : Char} {rest : Text}
    (h : (munch c rest).1.mark? = some m) : c = m ∧ (munch c rest).2 = 0 := by
  fun_cases munch c rest
  all_goals simp_all [munch, TokenKind.mark?]
  all_goals exact h

/-- A mark stands in the text where its token starts. -/
theorem hasAt_mark {text : Text} {t : Token} (h : t ∈ tokenize text) {m : Char}
    (hmark : t.kind.mark? = some m) :
    HasAt text t.start m ∧ t.text = String.ofList [m] := by
  obtain ⟨a, c, rest, htext, hstart, -, hkind, hchars⟩ :=
    mem_tokensFrom (show t ∈ tokensFrom 0 (width []) text from h)
  rw [← hkind] at hmark
  obtain ⟨rfl, hmore⟩ := munch_of_mark hmark
  refine ⟨⟨a, rest, htext, hstart⟩, ?_⟩
  rw [hchars, hmore]
  rfl

/-- A mark covers its one character. -/
theorem stop_of_mark {text : Text} {t : Token} (h : t ∈ tokenize text.sanitize)
    {m : Char} (hmark : t.kind.mark? = some m) :
    t.stop = t.start + m.utf8Size := by
  have haligned := aligned_tokenize text
  have hkind : t.kind ≠ .string := by
    intro hstring
    rw [hstring] at hmark
    cases hmark
  have hslice := haligned.spelled t h hkind
  obtain ⟨a, b, c, htext, -, hstart, hstop⟩ := (haligned.range t h).parts
  rw [(hasAt_mark h hmark).2, ← hstart, ← hstop, htext, slice_parts,
    String.toList_ofList] at hslice
  rw [← hstop, hslice, hstart, width_cons, width_nil, Nat.add_zero]

end QueryAssist
