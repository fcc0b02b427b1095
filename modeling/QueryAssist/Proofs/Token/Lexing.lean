import QueryAssist.Proofs.Token.Tiling

/-!
# How a text is read

A text, masked or not, is a sequence of blanks and of the characters of its
tokens. `Lexes` is the reading as a relation on the rest of the text, so
that what a scan of the characters does is compared with the tokens one
token at a time.
-/

namespace QueryAssist

open Text

/-! ## How far a token goes -/

/-- A closed run ends with its first closing character; without one it takes
all there is. -/
theorem closedLength_cases (close : Char) (text : Text) :
    (∃ body rest, text = body ++ close :: rest ∧ close ∉ body ∧
        closedLength close text = body.length + 1) ∨
      (close ∉ text ∧ closedLength close text = text.length) := by
  induction text with
  | nil => exact Or.inr ⟨by simp, rfl⟩
  | cons c cs ih =>
    by_cases hc : c = close
    · subst hc
      exact Or.inl ⟨[], cs, rfl, by simp, by simp [closedLength]⟩
    · have hlength : closedLength close (c :: cs)
          = closedLength close cs + 1 := by simp [closedLength, hc]
      rcases ih with ⟨body, rest, rfl, hbody, hlen⟩ | ⟨hnone, hlen⟩
      · refine Or.inl
          ⟨c :: body, rest, rfl, ?_, by rw [hlength, hlen, List.length_cons]⟩
        simp [hbody, Ne.symm hc]
      · refine Or.inr ⟨?_, by rw [hlength, hlen, List.length_cons]⟩
        simp [hnone, Ne.symm hc]

/-- Characters that end where a closed run ends are closed by their last one, or
nothing stands behind them. -/
theorem closedLength_eq_length_cases {close : Char} {more rest : Text}
    (h : closedLength close (more ++ rest) = more.length) :
    (∃ body, more = body ++ [close] ∧ close ∉ body) ∨
      (rest = [] ∧ close ∉ more) := by
  rcases closedLength_cases close (more ++ rest)
    with ⟨body, later, htext, hbody, hclosed⟩ | ⟨hnone, hopen⟩
  · have hsplit : more ++ rest = (body ++ [close]) ++ later := by
      rw [htext, List.append_assoc]; rfl
    obtain ⟨rfl, -⟩ :=
      List.append_inj hsplit (by rw [← h, hclosed, List.length_append]; rfl)
    exact Or.inl ⟨body, rfl, hbody⟩
  · have hrest : rest = [] := by
      rw [h, List.length_append] at hopen
      exact List.length_eq_zero_iff.1 (by omega)
    rw [hrest, List.append_nil] at hnone
    exact Or.inr ⟨hrest, hnone⟩

theorem closedLength_le (close : Char) (text : Text) :
    closedLength close text ≤ text.length := by
  rcases closedLength_cases close text
    with ⟨body, rest, rfl, -, hlen⟩ | ⟨-, hlen⟩
  · rw [hlen, List.length_append, List.length_cons]
    omega
  · exact Nat.le_of_eq hlen

theorem take_wordRun (text : Text) :
    text.take (wordRun text) = text.takeWhile isWordChar :=
  (List.prefix_iff_eq_take.1 (List.takeWhile_prefix isWordChar)).symm

theorem take_digitRun (text : Text) :
    text.take (digitRun text) = text.takeWhile Char.isDigit :=
  (List.prefix_iff_eq_take.1 (List.takeWhile_prefix Char.isDigit)).symm

/-- A number goes on with digits and at most a point between them. -/
theorem numberRun_cases (text : Text) :
    numberRun text = digitRun text ∨
      ∃ d rest, text = text.take (digitRun text) ++ '.' :: d :: rest ∧
        d.isDigit = true ∧
        numberRun text = digitRun text + 2 + digitRun rest := by
  unfold numberRun
  simp only
  split
  · rename_i d rest hdrop
    split
    · rename_i hd
      refine Or.inr ⟨d, rest, ?_, hd, rfl⟩
      rw [← hdrop, List.take_append_drop]
    · exact Or.inl rfl
  · exact Or.inl rfl

theorem digitRun_le (text : Text) : digitRun text ≤ text.length :=
  (List.takeWhile_prefix Char.isDigit).length_le

theorem numberRun_le (text : Text) : numberRun text ≤ text.length := by
  rcases numberRun_cases text with h | ⟨d, rest, htext, -, hrun⟩
  · rw [h]
    exact digitRun_le text
  · have hlen : text.length = digitRun text + (rest.length + 2) := by
      have := congrArg List.length htext
      simpa [Nat.min_eq_left (digitRun_le text)] using this
    have := digitRun_le rest
    omega

/-- A token takes no more characters than there are. -/
theorem munch_le (c : Char) (rest : Text) : (munch c rest).2 ≤ rest.length := by
  have hword : wordRun rest ≤ rest.length :=
    (List.takeWhile_prefix isWordChar).length_le
  fun_cases munch c rest
  case case8 => exact closedLength_le c rest
  case case9 => exact closedLength_le c rest
  case case10 => exact hword
  case case11 h =>
    simp only [Bool.and_eq_true, beq_iff_eq] at h
    obtain ⟨tail, rfl⟩ := List.head?_eq_some_iff.1 h.2
    simp
  case case12 => exact numberRun_le rest
  case case13 => exact hword
  all_goals exact Nat.zero_le _

/-- A literal starts with its quote and goes on to the next one. -/
theorem munch_of_string {c : Char} {rest : Text}
    (h : (munch c rest).1 = .string) :
    c = '\'' ∧ (munch c rest).2 = closedLength '\'' rest := by
  revert h
  fun_cases munch c rest
  all_goals intro h
  case case8 hc =>
    have hc : c = '\'' := by simpa using hc
    exact ⟨hc, by rw [hc]⟩
  all_goals cases h

/-- A quoted name starts with its quote. -/
theorem munch_of_quotedName {c : Char} {rest : Text}
    (h : (munch c rest).1 = .quotedName) : c = '"' ∨ c = '\x60' := by
  revert h
  fun_cases munch c rest
  all_goals intro h
  case case9 hc => simpa using hc
  all_goals cases h

/-! ## Reading -/

/-- The text that starts at an offset is read as the tokens. -/
inductive Lexes : Nat → Text → List Token → Prop
  | done (offset : Nat) : Lexes offset [] []
  | blank {offset : Nat} {c : Char} {cs : Text} {ts : List Token}
      (hblank : isBlank c = true) (tail : Lexes (offset + c.utf8Size) cs ts) :
      Lexes offset (c :: cs) ts
  | token {offset : Nat} {c : Char} {more rest : Text} {kind : TokenKind}
      {ts : List Token} (hblank : isBlank c = false)
      (hmunch : munch c (more ++ rest) = (kind, more.length))
      (tail : Lexes (offset + width (c :: more)) rest ts) :
      Lexes offset (c :: (more ++ rest))
        ({ kind, text := String.ofList (c :: more), start := offset,
           stop := offset + width (c :: more) } :: ts)

/-- Every text is read as its tokens. -/
theorem lexes_tokensFrom (offset : Nat) (text : Text) :
    Lexes offset text (tokensFrom 0 offset text) := by
  match text with
  | [] => exact .done offset
  | c :: cs =>
    by_cases hblank : isBlank c = true
    · rw [tokensFrom, if_pos hblank]
      exact .blank hblank (lexes_tokensFrom _ cs)
    · rw [tokensFrom, if_neg hblank]
      -- the characters that belong to the token, and what is read after them
      obtain ⟨more, rest, hcs, hlen⟩ : ∃ more rest,
          cs = more ++ rest ∧ more.length = (munch c cs).2 :=
        ⟨cs.take (munch c cs).2, cs.drop (munch c cs).2,
          (List.take_append_drop ..).symm,
          by rw [List.length_take, Nat.min_eq_left (munch_le c cs)]⟩
      have : rest.length < (c :: cs).length := by
        rw [hcs]
        simp only [List.length_cons, List.length_append]
        omega
      have htail := lexes_tokensFrom (offset + width (c :: more)) rest
      subst hcs
      simp only [← hlen, List.take_left, tokensFrom_skip]
      rw [Nat.add_assoc, ← width_cons]
      exact .token (by simpa using hblank) (Prod.ext rfl hlen.symm) htail
termination_by text.length

theorem lexes_tokenize (text : Text) : Lexes 0 text (tokenize text) :=
  lexes_tokensFrom 0 text

/-- What stands behind a token that is read somewhere is read as the
tokens behind it. -/
theorem Lexes.of_append {offset : Nat} {text : Text} {before after : List Token}
    {t : Token} (h : Lexes offset text (before ++ t :: after)) (front : Text)
    (hfront : width front = offset) :
    ∃ a lexeme rest, front ++ text = a ++ (lexeme ++ rest) ∧ width a = t.start ∧
      lexeme = t.text.toList ∧ Lexes (t.start + width lexeme) rest after := by
  generalize htokens : before ++ t :: after = tokens at h
  induction h generalizing before front with
  | done => simp at htokens
  | @blank offset c cs ts hblank tail ih =>
    obtain ⟨a, lexeme, rest, htext, hrest⟩ :=
      ih (front ++ [c]) (by simp [hfront]) htokens
    exact ⟨a, lexeme, rest, by rw [← htext, List.append_assoc]; rfl, hrest⟩
  | @token offset c more rest kind ts hblank hmunch tail ih =>
    cases before with
    | nil =>
      obtain ⟨rfl, rfl⟩ := List.cons.inj htokens
      exact ⟨front, c :: more, rest, rfl, hfront, String.toList_ofList.symm,
        tail⟩
    | cons first before =>
      obtain ⟨-, htail⟩ := List.cons.inj htokens
      obtain ⟨a, lexeme, rest', htext, hrest⟩ :=
        ih (front ++ c :: more) (by simp [hfront]) htail
      exact ⟨a, lexeme, rest', by rw [← htext]; simp, hrest⟩

/-! ## Tokens without parentheses and quotes -/

/-- Whether a character means nothing to a scan for parentheses
outside literals. -/
def isQuiet (c : Char) : Bool := !(c == '(' || c == ')' || c == '\'')

theorem isQuiet_iff {c : Char} :
    isQuiet c = true ↔ c ≠ '(' ∧ c ≠ ')' ∧ c ≠ '\'' := by
  simp [isQuiet, and_assoc]

theorem isQuiet_of_isBlank {c : Char}
    (h : isBlank c = true) : isQuiet c = true := by
  refine isQuiet_iff.2 ⟨?_, ?_, ?_⟩ <;> rintro rfl
    <;> exact absurd h (by decide)

theorem isQuiet_of_isWordChar {c : Char}
    (h : isWordChar c = true) : isQuiet c = true := by
  refine isQuiet_iff.2 ⟨?_, ?_, ?_⟩ <;> rintro rfl
    <;> exact absurd h (by decide +kernel)

theorem isQuiet_of_isDigit {c : Char}
    (h : c.isDigit = true) : isQuiet c = true := by
  refine isQuiet_iff.2 ⟨?_, ?_, ?_⟩ <;> rintro rfl
    <;> exact absurd h (by decide)

theorem isQuiet_of_mem_numberRun {text : Text} {c : Char}
    (h : c ∈ text.take (numberRun text)) : isQuiet c = true := by
  have hdigits : ∀ (cs : Text) (d : Char),
      d ∈ cs.take (digitRun cs) → isQuiet d = true := by
    intro cs d hd
    rw [take_digitRun] at hd
    exact isQuiet_of_isDigit (List.all_eq_true.1 List.all_takeWhile d hd)
  rcases numberRun_cases text with hrun | ⟨d, rest, htext, hd, hrun⟩
  · rw [hrun] at h
    exact hdigits text c h
  · have hlen : (text.take (digitRun text)).length = digitRun text := by
      rw [List.length_take, Nat.min_eq_left (digitRun_le text)]
    generalize hwhole : text.take (digitRun text) = whole at htext hlen
    have hparts : text.take (numberRun text)
        = whole ++ '.' :: d :: rest.take (digitRun rest) := by
      rw [hrun, ← hlen, htext, Nat.add_assoc, List.take_length_add_append,
        Nat.add_comm 2]
      rfl
    rw [hparts] at h
    simp only [List.mem_append, List.mem_cons] at h
    rcases h with hin | rfl | rfl | hin
    · exact hdigits text c (hwhole ▸ hin)
    · decide
    · exact isQuiet_of_isDigit hd
    · exact hdigits rest c hin

/-- Only parentheses, literals and quoted names hold parentheses or quotes. -/
theorem isQuiet_of_munch (c : Char) (rest : Text)
    (hleft : (munch c rest).1 ≠ .leftParen)
    (hright : (munch c rest).1 ≠ .rightParen)
    (hstring : (munch c rest).1 ≠ .string)
    (hquoted : (munch c rest).1 ≠ .quotedName) :
    isQuiet c = true ∧ ∀ d ∈ rest.take (munch c rest).2, isQuiet d = true := by
  have hword : ∀ d ∈ rest.take (wordRun rest), isQuiet d = true := by
    intro d hd
    rw [take_wordRun] at hd
    exact isQuiet_of_isWordChar (List.all_eq_true.1 List.all_takeWhile d hd)
  revert hleft hright hstring hquoted
  fun_cases munch c rest
  all_goals intro hleft hright hstring hquoted
  case case3 => exact absurd rfl hleft
  case case4 => exact absurd rfl hright
  case case8 => exact absurd rfl hstring
  case case9 => exact absurd rfl hquoted
  case case10 h =>
    refine ⟨?_, hword⟩
    simp only [Bool.and_eq_true, Bool.or_eq_true, beq_iff_eq] at h
    rcases h.1 with (rfl | rfl) | rfl <;> decide
  case case11 h =>
    simp only [Bool.and_eq_true, beq_iff_eq] at h
    obtain ⟨tail, rfl⟩ := List.head?_eq_some_iff.1 h.2
    rw [h.1]
    exact ⟨by decide, by simp; decide⟩
  case case12 h => exact
    ⟨isQuiet_of_isDigit h, fun d => isQuiet_of_mem_numberRun⟩
  case case13 h =>
    refine ⟨isQuiet_of_isWordChar ?_, hword⟩
    rcases Bool.or_eq_true_iff.1 h with h | h <;> simp [isWordChar, h]
  all_goals simp_all [isQuiet]

end QueryAssist
