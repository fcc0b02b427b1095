import QueryAssist.Proofs.Token.Tiling

/-!
# Spelled tokens

A list of words and marks, each with or without a space in front, is spelled as
a text and located as tokens in it. The main statement is that the text is read
as these tokens, if no word is spelled right behind another one; `Reads` says so
in a form that can be put together piece by piece.
-/

namespace QueryAssist.Written

open Text

/-! ## Words and marks -/

/-- Whether characters make up a word. -/
def isWordText : Text → Bool
  | [] => false
  | c :: cs => (isAlphabetic c || c == '_') && cs.all isWordChar

/-- A text that is read as one word. -/
structure Word where
  text : String
  isWord : isWordText text.toList = true

/-- What is spelled: a word or a mark. -/
inductive Symbol where
  | word (word : Word)
  | comma
  | dot
  | leftParen
  | rightParen
  | star

namespace Symbol

def kind : Symbol → TokenKind
  | word _ => .word
  | comma => .comma
  | dot => .dot
  | leftParen => .leftParen
  | rightParen => .rightParen
  | star => .star

def chars : Symbol → Text
  | word w => w.text.toList
  | comma => [',']
  | dot => ['.']
  | leftParen => ['(']
  | rightParen => [')']
  | star => ['*']

/-- The token of a symbol that starts at an offset. -/
def token (symbol : Symbol) (start : Nat) : Token :=
  { kind := symbol.kind, text := String.ofList symbol.chars, start,
    stop := start + width symbol.chars }

@[simp]
theorem token_kind (symbol : Symbol) (start : Nat) :
    (symbol.token start).kind = symbol.kind := rfl

@[simp]
theorem token_start (symbol : Symbol) (start : Nat) :
    (symbol.token start).start = start := rfl

@[simp]
theorem token_word_text (w : Word) (start : Nat) :
    ((word w).token start).text = w.text := String.ofList_toList

@[simp]
theorem token_word_name (w : Word) (start : Nat) :
    ((word w).token start).name = w.text := by
  simp [Token.name, kind]

theorem token_word_isOneOf (w : Word) (start : Nat) (words : List String) :
    ((word w).token start).isOneOf words = Keyword.isOneOf words w.text := by
  rw [Token.isOneOf, token_word_text]
  rfl

end Symbol

/-- A symbol with or without a space in front. -/
structure Lexeme where
  spaced : Bool
  symbol : Symbol

namespace Lexeme

/-- The symbol right behind what comes before. -/
def tight (symbol : Symbol) : Lexeme := ⟨false, symbol⟩

/-- The symbol after a space. -/
def apart (symbol : Symbol) : Lexeme := ⟨true, symbol⟩

def gap (l : Lexeme) : Text := if l.spaced then [' '] else []

end Lexeme

/-- The text of some lexemes. -/
def spell (lexemes : List Lexeme) : Text :=
  lexemes.flatMap fun l => l.gap ++ l.symbol.chars

/-- The tokens of some lexemes that are spelled at an offset. -/
def locate (offset : Nat) : List Lexeme → List Token
  | [] => []
  | l :: ls =>
    l.symbol.token (offset + width l.gap)
      :: locate (offset + width l.gap + width l.symbol.chars) ls

@[simp]
theorem spell_nil : spell [] = [] := rfl

theorem spell_cons (l : Lexeme) (ls : List Lexeme) :
    spell (l :: ls) = l.gap ++ l.symbol.chars ++ spell ls := rfl

@[simp]
theorem spell_append (a b : List Lexeme) :
    spell (a ++ b) = spell a ++ spell b := List.flatMap_append

@[simp]
theorem spell_tight (symbol : Symbol) (ls : List Lexeme) :
    spell (.tight symbol :: ls) = symbol.chars ++ spell ls := rfl

@[simp]
theorem spell_apart (symbol : Symbol) (ls : List Lexeme) :
    spell (.apart symbol :: ls) = ' ' :: symbol.chars ++ spell ls := rfl

@[simp]
theorem locate_nil (offset : Nat) : locate offset [] = [] := rfl

@[simp]
theorem locate_tight (offset : Nat) (symbol : Symbol) (ls : List Lexeme) :
    locate offset (.tight symbol :: ls)
      = symbol.token offset :: locate (offset + width symbol.chars) ls := rfl

@[simp]
theorem locate_apart (offset : Nat) (symbol : Symbol) (ls : List Lexeme) :
    locate offset (.apart symbol :: ls)
      = symbol.token (offset + 1)
        :: locate (offset + 1 + width symbol.chars) ls := rfl

theorem locate_append (offset : Nat) (a b : List Lexeme) :
    locate offset (a ++ b)
      = locate offset a ++ locate (offset + width (spell a)) b := by
  induction a generalizing offset with
  | nil => rfl
  | cons l ls ih =>
    have hwidth : offset + width l.gap + width l.symbol.chars + width (spell ls)
        = offset + width (spell (l :: ls)) := by
      rw [spell_cons, width_append, width_append]
      omega
    rw [List.cons_append, locate, locate, ih, List.cons_append, hwidth]

/-- Every located token is the token of one of the lexemes. -/
theorem mem_locate {offset : Nat} {lexemes : List Lexeme} {t : Token}
    (h : t ∈ locate offset lexemes) :
    ∃ l ∈ lexemes, ∃ start,
      t = l.symbol.token start ∧ start < offset + width (spell lexemes) := by
  induction lexemes generalizing offset with
  | nil => cases h
  | cons l ls ih =>
    have hpos : 0 < width l.symbol.chars := by
      cases hsymbol : l.symbol with
      | word w =>
        have hword := w.isWord
        rcases hchars : w.text.toList with _ | ⟨c, cs⟩
        · simp [hchars, isWordText] at hword
        · have := c.utf8Size_pos
          simp only [Symbol.chars, hchars, width_cons]
          omega
      | comma => decide
      | dot => decide
      | leftParen => decide
      | rightParen => decide
      | star => decide
    rw [spell_cons, width_append, width_append]
    rcases List.mem_cons.1 h with rfl | hin
    · exact ⟨l, by simp, _, rfl, by omega⟩
    · obtain ⟨m, hm, start, rfl, hstart⟩ := ih hin
      exact ⟨m, by simp [hm], start, rfl, by omega⟩

/-! ## Characters -/

/-- Whether a symbol is a parenthesis. -/
def Symbol.isParen : Symbol → Bool
  | leftParen | rightParen => true
  | _ => false

theorem isWordChar_of_mem_word {w : Word} {c : Char}
    (h : c ∈ w.text.toList) : isWordChar c = true := by
  have hword := w.isWord
  rcases hchars : w.text.toList with _ | ⟨d, ds⟩
  · rw [hchars] at h
    cases h
  · rw [hchars] at h hword
    simp only [isWordText, Bool.and_eq_true, List.all_eq_true] at hword
    rcases List.mem_cons.1 h with rfl | hin
    · rcases Bool.or_eq_true_iff.1 hword.1 with hc | hc
        <;> simp [isWordChar, hc]
    · exact hword.2 c hin

/-- Symbols have no blanks, nothing that opens a comment or a literal, and no
parenthesis unless they are one. -/
theorem char_of_symbol {symbol : Symbol} {c : Char} (h : c ∈ symbol.chars) :
    isBlank c = false ∧ isPlain c = true ∧
      (symbol.isParen = false → c ≠ '(' ∧ c ≠ ')') := by
  cases symbol with
  | word w =>
    have hword := isWordChar_of_mem_word h
    refine ⟨?_, isPlain_of_isWordChar hword, ?_⟩
    · rcases hblank : isBlank c with _ | _
      · rfl
      · rw [isWordChar_of_isBlank hblank] at hword
        cases hword
    · rintro -
      constructor <;> rintro rfl <;> exact absurd hword (by decide +kernel)
  | comma => cases List.mem_singleton.1 h; decide
  | dot => cases List.mem_singleton.1 h; decide
  | leftParen => cases List.mem_singleton.1 h; decide
  | rightParen => cases List.mem_singleton.1 h; decide
  | star => cases List.mem_singleton.1 h; decide

theorem mem_spell {lexemes : List Lexeme} {c : Char} (h : c ∈ spell lexemes) :
    (c = ' ' ∧ ∃ l ∈ lexemes, l.spaced = true) ∨
      ∃ l ∈ lexemes, c ∈ l.symbol.chars := by
  obtain ⟨l, hl, hc⟩ := List.mem_flatMap.1 h
  rcases List.mem_append.1 hc with hgap | hchars
  · unfold Lexeme.gap at hgap
    split at hgap
    · rename_i hspaced
      exact Or.inl ⟨List.mem_singleton.1 hgap, l, hl, hspaced⟩
    · cases hgap
  · exact Or.inr ⟨l, hl, hchars⟩

theorem isPlain_of_mem_spell {lexemes : List Lexeme} {c : Char}
    (h : c ∈ spell lexemes) : isPlain c = true := by
  rcases mem_spell h with ⟨rfl, -⟩ | ⟨l, -, hc⟩
  · decide
  · exact (char_of_symbol hc).2.1

/-- No parenthesis stands in a text that is spelled without one. -/
theorem not_paren_of_mem_spell {lexemes : List Lexeme}
    (hparens : ∀ l ∈ lexemes, l.symbol.isParen = false) {c : Char}
    (h : c ∈ spell lexemes) : c ≠ '(' ∧ c ≠ ')' := by
  rcases mem_spell h with ⟨rfl, -⟩ | ⟨l, hl, hc⟩
  · decide
  · exact (char_of_symbol hc).2.2 (hparens l hl)

/-- No blank stands in a text that is spelled without spaces. -/
theorem isBlank_of_mem_spell {lexemes : List Lexeme}
    (htight : ∀ l ∈ lexemes, l.spaced = false) {c : Char}
    (h : c ∈ spell lexemes) : isBlank c = false := by
  rcases mem_spell h with ⟨-, l, hl, hspaced⟩ | ⟨l, -, hc⟩
  · rw [htight l hl] at hspaced
    cases hspaced
  · exact (char_of_symbol hc).1

/-! ## Reading -/

/-- Whether a text does not go on with a word. -/
def Opens (rest : Text) : Prop := ∀ c ∈ rest.head?, isWordChar c = false

theorem opens_cons {c : Char} {rest : Text}
    (h : isWordChar c = false) : Opens (c :: rest) := by
  intro d hd
  cases hd
  exact h

/-- The lexemes are read as their tokens wherever no word goes on behind them,
and they can stand behind a word. -/
structure Reads (lexemes : List Lexeme) : Prop where
  opens : ∀ rest, Opens rest → Opens (spell lexemes ++ rest)
  tokens : ∀ rest, Opens rest →
    ∀ offset,
      tokensFrom 0 offset (spell lexemes ++ rest)
        = locate offset lexemes
          ++ tokensFrom 0 (offset + width (spell lexemes)) rest

namespace Reads

theorem nil : Reads [] where
  opens _ h := h
  tokens _ _ _ := rfl

theorem append {a b : List Lexeme} (ha : Reads a)
    (hb : Reads b) : Reads (a ++ b) where
  opens rest h := by
    rw [spell_append, List.append_assoc]
    exact ha.opens _ (hb.opens rest h)
  tokens rest h offset := by
    rw [spell_append, List.append_assoc, ha.tokens _ (hb.opens rest h),
      hb.tokens rest h, locate_append, List.append_assoc, width_append,
      Nat.add_assoc]

theorem flatMap {α : Type} {f : α → List Lexeme} {as : List α}
    (h : ∀ a ∈ as, Reads (f a)) : Reads (as.flatMap f) := by
  induction as with
  | nil => exact nil
  | cons a as ih =>
    rw [List.flatMap_cons]
    exact (h a (by simp)).append (ih fun b hb => h b (by simp [hb]))

end Reads

/-! ## Reading one symbol -/

/-- A word is none of the marks and no number, and it ends where no
word goes on. -/
theorem munch_word {c : Char} {cs rest : Text} (h : isWordText (c :: cs) = true)
    (hrest : Opens rest) : munch c (cs ++ rest) = (.word, cs.length) := by
  simp only [isWordText, Bool.and_eq_true, List.all_eq_true] at h
  obtain ⟨hstart, hmore⟩ := h
  have hmark : ∀ mark,
      (isAlphabetic mark || mark == '_') = false → (c == mark) = false := by
    intro mark hother
    rw [beq_eq_false_iff_ne]
    rintro rfl
    rw [hother] at hstart
    cases hstart
  have hdigit : c.isDigit = false := by
    rcases hd : c.isDigit with _ | _
    · rfl
    · have hdigits : ∀ n ∈ List.range' 48 10,
          (isAlphabetic (Char.ofNat n) || Char.ofNat n == '_') = false := by
        decide +kernel
      simp only [Char.isDigit, Bool.and_eq_true, decide_eq_true_eq] at hd
      have hlow : 48 ≤ c.toNat := hd.1
      have hhigh : c.toNat ≤ 57 := hd.2
      have := hdigits c.toNat (List.mem_range'_1.2 ⟨hlow, by omega⟩)
      rw [Char.ofNat_toNat, hstart] at this
      cases this
  have hrun : wordRun (cs ++ rest) = cs.length := by
    have hend : rest.takeWhile isWordChar = [] := by
      cases rest with
      | nil => rfl
      | cons d ds => rw [List.takeWhile_cons_of_neg (by simp [hrest d rfl])]
    rw [wordRun, List.takeWhile_append_of_pos hmore, hend, List.append_nil]
  -- Every branch before the one for words asks for a mark or a digit.
  unfold munch
  simp only [hmark ',' (by decide +kernel), hmark '.' (by decide +kernel),
    hmark '(' (by decide +kernel), hmark ')' (by decide +kernel),
    hmark ';' (by decide +kernel), hmark '*' (by decide +kernel),
    hmark '?' (by decide +kernel), hmark '\'' (by decide +kernel),
    hmark '"' (by decide +kernel), hmark '\x60' (by decide +kernel),
    hmark ':' (by decide +kernel), hmark '@' (by decide +kernel),
    hmark '$' (by decide +kernel), hdigit, hstart, hrun, Bool.false_eq_true,
    if_false, if_true, Bool.or_self, Bool.false_and]

/-- The first character of a symbol starts its token, and the token takes
the others. -/
theorem munch_symbol (symbol : Symbol) {rest : Text} (hrest : Opens rest) :
    ∃ c cs, symbol.chars = c :: cs ∧ isBlank c = false ∧
      munch c (cs ++ rest) = (symbol.kind, cs.length) := by
  cases symbol with
  | word w =>
    have hword := w.isWord
    rcases hchars : w.text.toList with _ | ⟨c, cs⟩
    · simp [hchars, isWordText] at hword
    · rw [hchars] at hword
      refine ⟨c, cs, hchars, ?_, munch_word hword hrest⟩
      rcases hblank : isBlank c with _ | _
      · rfl
      · have hnone := isWordChar_of_isBlank hblank
        simp only [isWordText, Bool.and_eq_true, Bool.or_eq_true] at hword
        simp only [isWordChar, Bool.or_eq_false_iff] at hnone
        rcases hword.1 with h | h
        · simp [hnone] at h
        · simp [hnone] at h
  | comma => exact ⟨',', [], rfl, by decide, rfl⟩
  | dot => exact ⟨'.', [], rfl, by decide, rfl⟩
  | leftParen => exact ⟨'(', [], rfl, by decide, rfl⟩
  | rightParen => exact ⟨')', [], rfl, by decide, rfl⟩
  | star => exact ⟨'*', [], rfl, by decide, rfl⟩

theorem tokensFrom_symbol (symbol : Symbol) {rest : Text} (hrest : Opens rest)
    (offset : Nat) :
    tokensFrom 0 offset (symbol.chars ++ rest)
      = symbol.token offset
        :: tokensFrom 0 (offset + width symbol.chars) rest := by
  obtain ⟨c, cs, hchars, hblank, hmunch⟩ := munch_symbol symbol hrest
  rw [hchars, List.cons_append, tokensFrom, hblank]
  simp only [Bool.false_eq_true, if_false, hmunch, List.take_left,
    tokensFrom_skip]
  rw [Symbol.token, hchars, width_cons, Nat.add_assoc]

namespace Reads

/-- A symbol after a space. -/
theorem apart (symbol : Symbol) : Reads [.apart symbol] where
  opens _ _ := opens_cons (by decide +kernel)
  tokens rest h offset := by
    have hspace : isBlank ' ' = true := by decide
    rw [spell_apart, spell_nil, List.append_nil, List.cons_append, tokensFrom,
      if_pos hspace, tokensFrom_symbol symbol h, locate_apart, locate_nil,
      width_cons, ← Nat.add_assoc]
    rfl

/-- A mark right behind what comes before. -/
theorem mark {symbol : Symbol}
    (hmark : ∀ rest, Opens (symbol.chars ++ rest)) : Reads [.tight symbol] where
  opens rest _ := by
    rw [spell_tight, spell_nil, List.append_nil]
    exact hmark rest
  tokens rest h offset := by
    rw [spell_tight, spell_nil, List.append_nil, tokensFrom_symbol symbol h,
      locate_tight, locate_nil]
    rfl

theorem comma : Reads [.tight .comma] :=
  mark fun _ => opens_cons (by decide +kernel)

theorem rightParen : Reads [.tight .rightParen] :=
  mark fun _ => opens_cons (by decide +kernel)

/-- A symbol right behind a mark, which may be a word because the mark stands
between it and any word before. -/
theorem behind_mark {first : Lexeme} {symbol : Symbol}
    (hfirst : ∀ rest, Opens (spell [first] ++ rest))
    (htokens : ∀ rest offset,
      tokensFrom 0 offset (spell [first] ++ rest)
        = locate offset [first]
          ++ tokensFrom 0 (offset + width (spell [first])) rest) :
    Reads [first, .tight symbol] where
  opens rest _ := by
    rw [show [first, Lexeme.tight symbol] = [first] ++ [.tight symbol] from rfl,
      spell_append, List.append_assoc]
    exact hfirst _
  tokens rest h offset := by
    rw [show [first, Lexeme.tight symbol] = [first] ++ [.tight symbol] from rfl,
      spell_append, List.append_assoc, htokens, spell_tight, spell_nil,
      List.append_nil, tokensFrom_symbol symbol h, locate_append, locate_tight,
      locate_nil, width_append, List.append_assoc, Nat.add_assoc]
    rfl

/-- A symbol right behind a dot. -/
theorem behind_dot (symbol : Symbol) : Reads [.tight .dot, .tight symbol] :=
  behind_mark (fun _ => opens_cons (by decide +kernel)) fun _ _ => rfl

/-- A symbol right behind an opening parenthesis. -/
theorem behind_leftParen (symbol : Symbol) :
    Reads [.apart .leftParen, .tight symbol] :=
  behind_mark (fun _ => opens_cons (by decide +kernel)) fun _ _ => rfl

end Reads

end QueryAssist.Written
