import QueryAssist.Proofs.Text.LetterCase

/-!
# Tokens in upper case

Raising the ASCII letters of a text raises the texts of its tokens and changes
nothing else about them. Keywords are compared without regard to case, so a
raised token is the same keyword; its name is the raised name.
-/

namespace QueryAssist

open Text

/-! ## Reading -/

theorem closedLength_raise {close : Char} (h : close ∈ marks) (text : Text) :
    closedLength close (raise text) = closedLength close text := by
  induction text with
  | nil => rfl
  | cons c cs ih =>
    rw [raise_cons, closedLength, closedLength, toUpper_beq h, ih]

theorem digitRun_raise (text : Text) :
    digitRun (raise text) = digitRun text := by
  rw [digitRun, takeWhile_raise isDigit_toUpper, raise, List.length_map,
    digitRun]

theorem wordRun_raise (text : Text) : wordRun (raise text) = wordRun text := by
  rw [wordRun, takeWhile_raise isWordChar_toUpper, raise, List.length_map,
    wordRun]

theorem numberRun_raise (text : Text) :
    numberRun (raise text) = numberRun text := by
  have hdrop : (raise text).drop (digitRun text)
      = raise (text.drop (digitRun text)) := by
    rw [raise, raise, List.map_drop]
  simp only [numberRun, digitRun_raise, hdrop]
  -- behind the digits, two characters decide
  rcases text.drop (digitRun text) with _ | ⟨c, _ | ⟨d, rest⟩⟩
  · rfl
  · by_cases hc : c = '.'
    · subst hc
      rfl
    · simp
  · by_cases hc : c = '.'
    · subst hc
      have hself : '.'.toUpper = '.' := by decide
      simp only [raise_cons, hself, isDigit_toUpper, digitRun_raise]
    · have hdot := toUpper_beq (m := '.') (by decide) c
      have hraised : c.toUpper ≠ '.' := by
        rwa [beq_false_of_ne hc, beq_eq_false_iff_ne] at hdot
      simp [hc, hraised]

/-- What starts a token, and how far the token goes, is the same in
either case. -/
theorem munch_raise (c : Char) (rest : Text) :
    munch c.toUpper (raise rest) = munch c rest := by
  have hword : (rest.head?.map Char.toUpper).any isWordChar
      = rest.head?.any isWordChar := by
    cases rest with
    | nil => rfl
    | cons d ds => exact isWordChar_toUpper d
  have hbeq : ∀ {m}, m ∈ marks → (c.toUpper == m) = (c == m) :=
    fun hm => toUpper_beq hm c
  simp only [munch, hbeq (m := ',') (by decide), hbeq (m := '.') (by decide),
    hbeq (m := '(') (by decide), hbeq (m := ')') (by decide),
    hbeq (m := ';') (by decide), hbeq (m := '*') (by decide),
    hbeq (m := '?') (by decide), hbeq (m := '\'') (by decide),
    hbeq (m := '"') (by decide), hbeq (m := '\x60') (by decide),
    hbeq (m := ':') (by decide), hbeq (m := '@') (by decide),
    hbeq (m := '$') (by decide), hbeq (m := '_') (by decide), head?_raise,
    hword, map_toUpper_beq (m := ':') (by decide), isDigit_toUpper,
    isAlphabetic_toUpper, wordRun_raise, numberRun_raise]
  -- only a quote is looked for again
  by_cases hquote : c ∈ marks
  · rw [toUpper_mark hquote, closedLength_raise hquote]
  · have hne : ∀ m ∈ marks, (c == m) = false := by
      intro m hm
      exact beq_false_of_ne fun heq => hquote (heq ▸ hm)
    simp only [hne '\'' (by decide), hne '"' (by decide),
      hne '\x60' (by decide), Bool.or_self, Bool.false_eq_true, if_false]

/-- The token with its ASCII letters in upper case. -/
def Token.raise (t : Token) : Token := { t with text := foldAscii t.text }

theorem tokensFrom_raise (skip offset : Nat) (text : Text) :
    tokensFrom skip offset (raise text)
      = (tokensFrom skip offset text).map Token.raise := by
  induction text generalizing skip offset with
  | nil => rfl
  | cons c cs ih =>
    cases skip with
    | succ n => rw [raise_cons, tokensFrom, tokensFrom, utf8Size_toUpper, ih]
    | zero =>
      have hchars : c.toUpper :: (raise cs).take (munch c cs).2
          = raise (c :: cs.take (munch c cs).2) := by
        rw [raise, raise, List.map_cons, List.map_take]
      rw [raise_cons, tokensFrom, tokensFrom, utf8Size_toUpper, isBlank_toUpper,
        munch_raise]
      split
      · exact ih 0 _
      · simp only [hchars, width_raise, ih, List.map_cons, Token.raise,
          foldAscii_ofList]

theorem tokenize_raise (text : Text) :
    tokenize (raise text) = (tokenize text).map Token.raise :=
  tokensFrom_raise 0 0 text

/-! ## Names -/

theorem dropClosingQuote_raise (text : Text) :
    Token.dropClosingQuote (raise text)
      = raise (Token.dropClosingQuote text) := by
  have hlast : ∀ m ∈ marks,
      (raise text).getLast? = some m ↔ text.getLast? = some m := by
    intro m hm
    have hbeq := map_toUpper_beq hm text.getLast?
    rw [raise, List.getLast?_map, ← beq_iff_eq, hbeq, beq_iff_eq]
  simp only [Token.dropClosingQuote, hlast '"' (by decide),
    hlast '\x60' (by decide)]
  split
  · rw [raise, raise, List.map_dropLast]
  · rfl

namespace Token

variable (t : Token)

@[simp]
theorem raise_kind : t.raise.kind = t.kind := rfl

@[simp]
theorem raise_start : t.raise.start = t.start := rfl

@[simp]
theorem raise_stop : t.raise.stop = t.stop := rfl

theorem raise_name : t.raise.name = foldAscii t.name := by
  have htext : t.raise.text.toList = Text.raise t.text.toList :=
    toList_foldAscii t.text
  rw [name, htext, raise_kind, name]
  generalize t.text.toList = chars
  rcases chars with _ | ⟨quote, _ | ⟨c, cs⟩⟩
  · cases t.kind <;> rfl
  · cases t.kind <;> rfl
  · cases t.kind with
    | quotedName =>
      simp only [raise_cons, ← dropClosingQuote_raise, foldAscii_ofList]
    | _ => rfl

end Token

end QueryAssist
