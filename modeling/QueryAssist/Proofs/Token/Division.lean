import QueryAssist.Proofs.Token.Tiling
import QueryAssist.Text.Statement

/-!
# Two texts divided by a semicolon

A semicolon in code belongs to no comment, literal, quoted name, word or number.
So when the scanner ends a text in code, a semicolon and a second text behind it
change nothing of what the first is read as: the masked text and the tokens of
the whole are those of the first text, the semicolon, and those of the second,
moved behind it.
-/

namespace QueryAssist

open Text

/-! ## Runs that a semicolon ends -/

section Runs

variable {α : Type} {p : α → Bool} {stop : α}

theorem takeWhile_append_stop (hstop : p stop = false) (xs ys : List α) :
    (xs ++ stop :: ys).takeWhile p = xs.takeWhile p := by
  induction xs with
  | nil => simp [hstop]
  | cons x xs ih =>
    rw [List.cons_append, List.takeWhile_cons, List.takeWhile_cons, ih]

theorem dropWhile_append_stop (hstop : p stop = false) (xs ys : List α) :
    (xs ++ stop :: ys).dropWhile p = xs.dropWhile p ++ stop :: ys := by
  induction xs with
  | nil => simp [hstop]
  | cons x xs ih =>
    rw [List.cons_append, List.dropWhile_cons, List.dropWhile_cons, ih]
    split
    · rfl
    · rw [List.cons_append]

end Runs

/-! ## The masked text -/

/-- The scanner looks ahead for the second character of a delimiter, which a
semicolon never is. -/
theorem Text.Mode.next_semicolon (mode : Mode) (c : Char) :
    mode.next c (some ';') = mode.next c none := by
  cases mode <;> simp [Mode.next]

theorem Text.Mode.next_append_semicolon (mode : Mode) (c : Char) (a b : Text) :
    mode.next c (a ++ ';' :: b).head? = mode.next c a.head? := by
  cases a with
  | nil => exact mode.next_semicolon c
  | cons d ds => rfl

/-- Both parts are masked on their own if the scanner ends the first
one in code. -/
theorem cleanFrom_append_semicolon {mode : Mode} {a : Text}
    (h : mode.run a = .code) (b : Text) :
    cleanFrom mode (a ++ ';' :: b)
      = cleanFrom mode a ++ ';' :: cleanFrom .code b := by
  induction a generalizing mode with
  | nil =>
    have hcode : mode = .code := h
    rw [hcode, List.nil_append]
    exact cleanFrom_code_of_isPlain (by decide) b
  | cons c cs ih =>
    rw [Mode.run] at h
    simp only [List.cons_append, cleanFrom, maskFrom,
      Mode.next_append_semicolon]
    rw [List.append_assoc, ← ih h]

theorem sanitize_append_semicolon {a : Text} (h : Mode.code.run a = .code)
    (b : Text) : (a ++ ';' :: b).sanitize = a.sanitize ++ ';' :: b.sanitize :=
  cleanFrom_append_semicolon h b

/-- A literal that the scanner leaves holds its closing quote, masked or not. -/
theorem quote_mem_cleanFrom {text : Text} (h : Mode.string.run text = .code) :
    '\'' ∈ cleanFrom .string text := by
  induction text with
  | nil => cases h
  | cons c cs ih =>
    by_cases hc : c = '\''
    · subst hc
      simp [cleanFrom, maskFrom, Masking.hides, Mode.next, Mode.inComment]
    · have hnext : Mode.string.next c cs.head? = .string := by
        simp [Mode.next, hc]
      rw [Mode.run, hnext] at h
      simp only [cleanFrom, maskFrom, hnext]
      exact List.mem_append_right _ (ih h)

theorem close_mem_cleanFrom {close : Char} {text : Text}
    (h : (Mode.quoted close).run text = .code) :
    close ∈ cleanFrom (.quoted close) text := by
  induction text with
  | nil => cases h
  | cons c cs ih =>
    by_cases hc : c = close
    · subst hc
      simp [cleanFrom, maskFrom, Masking.hides, Mode.inComment]
    · have hnext : (Mode.quoted close).next c cs.head? = .quoted close := by
        simp [Mode.next, hc]
      rw [Mode.run, hnext] at h
      simp only [cleanFrom, maskFrom, hnext]
      exact List.mem_append_right _ (ih h)

/-! ## Tokens -/

theorem wordRun_append_semicolon (a b : Text) :
    wordRun (a ++ ';' :: b) = wordRun a := by
  rw [wordRun, takeWhile_append_stop (by decide +kernel), wordRun]

theorem digitRun_append_semicolon (a b : Text) :
    digitRun (a ++ ';' :: b) = digitRun a := by
  rw [digitRun, takeWhile_append_stop (by decide), digitRun]

theorem numberRun_append_semicolon (a b : Text) :
    numberRun (a ++ ';' :: b) = numberRun a := by
  have hle : digitRun a ≤ a.length :=
    (List.takeWhile_prefix Char.isDigit).length_le
  simp only [numberRun, digitRun_append_semicolon,
    List.drop_append_of_le_length hle]
  -- what stands behind the digits: nothing, one character, or two that decide
  rcases a.drop (digitRun a) with _ | ⟨c, _ | ⟨d, rest⟩⟩
  · rfl
  · by_cases hc : c = '.'
    · subst hc
      rfl
    · simp [hc]
  · by_cases hc : c = '.'
    · subst hc
      simp [digitRun_append_semicolon]
    · simp [hc]

theorem closedLength_append_of_mem {close : Char} {a : Text} (h : close ∈ a)
    (b : Text) : closedLength close (a ++ b) = closedLength close a := by
  induction a with
  | nil => cases h
  | cons c cs ih =>
    rw [List.cons_append, closedLength, closedLength]
    by_cases hc : c = close
    · simp [hc]
    · rw [ih (by simpa [Ne.symm hc] using h)]

/-- A token goes no further than a semicolon, if the quote that it may open is
closed before. -/
theorem munch_append_semicolon {c : Char} {a : Text}
    (hclosed : c = '\'' ∨ c = '"' ∨ c = '\x60' → c ∈ a) (b : Text) :
    munch c (a ++ ';' :: b) = munch c a := by
  have hword : (a ++ ';' :: b).head?.any isWordChar
      = a.head?.any isWordChar := by
    cases a with
    | nil =>
      have hsemicolon : isWordChar ';' = false := by decide +kernel
      simp [hsemicolon]
    | cons d ds => rfl
  have hcolon : ((a ++ ';' :: b).head? == some ':')
      = (a.head? == some ':') := by
    cases a with
    | nil => rfl
    | cons d ds => rfl
  unfold munch
  simp only [hword, hcolon, wordRun_append_semicolon,
    numberRun_append_semicolon]
  by_cases hquote : c = '\'' ∨ c = '"' ∨ c = '\x60'
  · rw [closedLength_append_of_mem (hclosed hquote)]
  · simp only [not_or] at hquote
    simp [hquote]

/-- The token moved on by `n` bytes. -/
def Token.shift (n : Nat) (t : Token) : Token :=
  { t with start := t.start + n, stop := t.stop + n }

theorem tokensFrom_shift (n skip offset : Nat) (text : Text) :
    tokensFrom skip (offset + n) text
      = (tokensFrom skip offset text).map (Token.shift n) := by
  induction text generalizing skip offset with
  | nil => rfl
  | cons c cs ih =>
    have hoffset : offset + n + c.utf8Size = offset + c.utf8Size + n := by omega
    cases skip with
    | succ k => rw [tokensFrom, tokensFrom, hoffset, ih]
    | zero =>
      rw [tokensFrom, tokensFrom, hoffset]
      split
      · exact ih 0 _
      · simp only [ih, List.map_cons, Token.shift, List.cons.injEq, and_true]
        simp only [Token.mk.injEq, true_and]
        omega

/-- The semicolon at an offset. -/
def Token.semicolonAt (offset : Nat) : Token :=
  { kind := .semicolon, text := ";", start := offset, stop := offset + 1 }

theorem run_behind {whole behind : Text}
    (hrun : Mode.code.run whole = Mode.code.run behind ∨ behind = [])
    (hcode : Mode.code.run whole = .code) : Mode.code.run behind = .code := by
  rcases hrun with heq | rfl
  · rw [← heq, hcode]
  · rfl

/-- A quote in code is closed in the masked text, if the scanner ends the
text in code. -/
theorem mem_of_opens_quote {c : Char} {text rest : Text}
    (hclean : cleanFrom .code (c :: text) = c :: rest)
    (hcode : Mode.code.run (c :: text) = .code)
    (hquote : c = '\'' ∨ c = '"' ∨ c = '\x60') : c ∈ rest := by
  have hblank : isBlank c = false := by
    rcases hquote with rfl | rfl | rfl <;> decide
  obtain ⟨cs, heq, rfl⟩ := cons_of_cleanFrom_code hclean hblank
  rw [heq, Mode.run] at hcode
  rcases hquote with rfl | rfl | rfl
  · exact quote_mem_cleanFrom hcode
  · exact close_mem_cleanFrom hcode
  · exact close_mem_cleanFrom hcode

/-- In step with the scanner, the tokens of a text that ends in code are read as
before when a semicolon follows. -/
theorem InStep.tokensFrom_append {offset : Nat} {a : Text} {ts : List Token}
    (h : InStep offset a ts) (hcode : Mode.code.run a = .code) (rest : Text) :
    tokensFrom 0 offset (cleanFrom .code a ++ ';' :: rest)
      = ts ++ tokensFrom 0 (offset + width a) (';' :: rest) := by
  induction h with
  | done => rfl
  | @gap offset front blanks behind ts hclean hblanks hwidth hrun tail ih =>
    have hbehind := run_behind hrun hcode
    rw [hclean, List.append_assoc, tokensFrom_blanks hblanks, hwidth,
      ih hbehind, width_append, Nat.add_assoc]
  | @token offset c first shown behind kind ts hblank hclean hmunch hwidth
      hverbatim hrun tail ih =>
    have hbehind := run_behind hrun hcode
    have hmunch' : munch c (shown ++ (cleanFrom .code behind ++ ';' :: rest))
        = (kind, shown.length) := by
      rw [← List.append_assoc,
        munch_append_semicolon (mem_of_opens_quote hclean hcode), hmunch]
    have hstop : offset + c.utf8Size + width shown
        = offset + width (c :: first) := by
      rw [width_cons, hwidth, Nat.add_assoc]
    have hwhole : offset + width (c :: (first ++ behind))
        = offset + width (c :: first) + width behind := by
      simp only [width_cons, width_append]
      omega
    rw [hclean, List.cons_append, List.append_assoc, tokensFrom,
      if_neg (by simp [hblank])]
    simp only [hmunch', List.take_left, tokensFrom_skip, hstop, ih hbehind,
      hwhole, List.cons_append]

/-- The tokens of two texts divided by a semicolon. -/
theorem tokenize_append_semicolon {a : Text} (h : Mode.code.run a = .code)
    (b : Text) :
    tokenize (a ++ ';' :: b).sanitize
      = tokenize a.sanitize
        ++ Token.semicolonAt (width a)
          :: (tokenize b.sanitize).map (Token.shift (width a + 1)) := by
  have hsemicolon : tokensFrom 0 (width a) (';' :: b.sanitize)
      = Token.semicolonAt (width a)
        :: tokensFrom 0 (width a + 1) b.sanitize := by
    rw [tokensFrom, if_neg (by decide)]
    rfl
  have hshift := tokensFrom_shift (width a + 1) 0 0 b.sanitize
  rw [Nat.zero_add] at hshift
  calc tokenize (a ++ ';' :: b).sanitize
      = tokensFrom 0 0 (a.sanitize ++ ';' :: b.sanitize) := by
        rw [tokenize, sanitize_append_semicolon h]
    _ = tokenize a.sanitize ++ tokensFrom 0 (0 + width a) (';' :: b.sanitize) :=
        (inStep_cleanFrom 0 a).tokensFrom_append h b.sanitize
    _ = _ := by rw [Nat.zero_add, hsemicolon, hshift, tokenize, tokenize]

/-! ## Statements -/

theorem statementBounds_eq (clean : Text) (offset : Nat) :
    clean.statementBounds offset
      = (width (clean.upTo offset)
          - width ((clean.upTo offset).reverse.takeWhile (· != ';')),
        width (clean.upTo offset)
          + width ((clean.after offset).takeWhile (· != ';'))) := by
  simp only [statementBounds, upTo_floor]
  rfl

/-- A statement stands in its text. -/
theorem statementBounds_le (clean : Text) (offset : Nat) :
    (clean.statementBounds offset).1 ≤ width clean ∧
      (clean.statementBounds offset).2 ≤ width clean := by
  have hsplit := congrArg width (upTo_append_after clean offset)
  obtain ⟨more, hmore⟩ :=
    (List.takeWhile_prefix (· != ';') : _ <+: clean.after offset)
  have hrest := congrArg width hmore
  rw [width_append] at hsplit hrest
  rw [statementBounds_eq]
  simp only
  omega

/-- The statement at an offset of the first text ends at the
semicolon or before. -/
theorem statementBounds_append_left {a : Text} {offset : Nat}
    (h : offset ≤ width a) (b : Text) :
    (a ++ ';' :: b).statementBounds offset = a.statementBounds offset := by
  obtain ⟨hup, hafter⟩ := upTo_append_of_le h (';' :: b)
  rw [statementBounds_eq, statementBounds_eq, hup, hafter,
    takeWhile_append_stop (by decide)]

/-- The statement at an offset of the second text starts behind
the semicolon. -/
theorem statementBounds_append_right (a b : Text) (offset : Nat) :
    (a ++ ';' :: b).statementBounds (offset + (width a + 1))
      = ((b.statementBounds offset).1 + (width a + 1),
        (b.statementBounds offset).2 + (width a + 1)) := by
  have hwidth : width (a ++ [';']) = width a + 1 := by
    rw [width_append]
    rfl
  have hsplit : a ++ ';' :: b = (a ++ [';']) ++ b := by simp
  have hoffset : offset + (width a + 1) = width (a ++ [';']) + offset := by
    omega
  obtain ⟨hup, hafter⟩ := upTo_append_add (a ++ [';']) b offset
  have hbefore : ((a ++ [';']) ++ b.upTo offset).reverse.takeWhile (· != ';')
      = (b.upTo offset).reverse.takeWhile (· != ';') := by
    rw [List.append_assoc, List.singleton_append, List.reverse_append,
      List.reverse_cons, List.append_assoc, List.singleton_append,
      takeWhile_append_stop (by decide)]
  have hle : width ((b.upTo offset).reverse.takeWhile (· != ';'))
      ≤ width (b.upTo offset) := by
    obtain ⟨more, hmore⟩ :=
      (List.takeWhile_prefix (· != ';') : _ <+: (b.upTo offset).reverse)
    have := congrArg width hmore
    rw [width_append, width_reverse] at this
    omega
  rw [statementBounds_eq, statementBounds_eq, hsplit, hoffset, hup, hafter,
    hbefore, width_append, hwidth]
  ext
  · simp only
    omega
  · simp only
    omega

end QueryAssist
