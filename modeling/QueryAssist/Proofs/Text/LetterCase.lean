import QueryAssist.Catalog.Basic
import QueryAssist.Finding.Structure
import QueryAssist.Proofs.Token.Division
import QueryAssist.Text.Casing

/-!
# Texts in upper case

Raising the ASCII letters of a text keeps the width and the class of every
character, and leaves all marks as they are. So it commutes with masking, with
every cut of a text, and with every scan for quotes and parentheses, and it
moves no position.
-/

namespace QueryAssist.Text

/-! ## Characters -/

/-- The ASCII letters in lower case. -/
def smallLetters : List Char := "abcdefghijklmnopqrstuvwxyz".toList

/-- Only small letters are raised. -/
theorem toUpper_cases (c : Char) : c.toUpper = c ∨ c ∈ smallLetters := by
  by_cases h : 97 ≤ c.toNat ∧ c.toNat ≤ 122
  · right
    obtain ⟨hlow, hhigh⟩ := h
    have hc : c = Char.ofNat c.toNat := c.ofNat_toNat.symm
    rw [hc]
    generalize c.toNat = n at hlow hhigh
    have hall : ∀ n, n < 123 → 97 ≤ n → Char.ofNat n ∈ smallLetters := by
      decide +kernel
    exact hall n (by omega) hlow
  · left
    unfold Char.toUpper
    rw [dif_neg]
    intro hsmall
    exact h hsmall

/-- What is the same for each small letter and its capital is the same for every
character and its upper case. -/
theorem eq_of_smallLetters {α : Type} (f : Char → α)
    (h : smallLetters.map (fun c => f c.toUpper) = smallLetters.map f)
    (c : Char) : f c.toUpper = f c := by
  rcases toUpper_cases c with hsame | hsmall
  · rw [hsame]
  · exact List.map_inj_left.1 h c hsmall

/-- The marks that scans look for, none of them a letter. -/
def marks : List Char :=
  [',', '.', '(', ')', ';', '*', '?', '\'', '"', '\x60', ':', '@', '$', '_',
    '-', '/', '\n', '\r', '\\']

/-- All that is ever asked about a character, but for the case of a letter. -/
structure Profile where
  size : Nat
  isBlank : Bool
  isWordChar : Bool
  isAlphabetic : Bool
  isDigit : Bool
  /-- Its upper case among the ASCII letters. -/
  capital : Char
  /-- Its full upper case. -/
  upper : List Char
  /-- For every mark, whether it is that mark. -/
  isMark : List Bool
  deriving DecidableEq

def profile (c : Char) : Profile :=
  { size := c.utf8Size
    isBlank := isBlank c
    isWordChar := isWordChar c
    isAlphabetic := isAlphabetic c
    isDigit := c.isDigit
    capital := c.toUpper
    upper := upperChar c
    isMark := marks.map (c == ·) }

theorem profile_toUpper (c : Char) : profile c.toUpper = profile c :=
  eq_of_smallLetters profile (by decide +kernel) c

@[simp]
theorem toUpper_toUpper (c : Char) : c.toUpper.toUpper = c.toUpper :=
  congrArg Profile.capital (profile_toUpper c)

@[simp]
theorem utf8Size_toUpper (c : Char) : c.toUpper.utf8Size = c.utf8Size :=
  congrArg Profile.size (profile_toUpper c)

@[simp]
theorem isBlank_toUpper (c : Char) : isBlank c.toUpper = isBlank c :=
  congrArg Profile.isBlank (profile_toUpper c)

@[simp]
theorem isWordChar_toUpper (c : Char) : isWordChar c.toUpper = isWordChar c :=
  congrArg Profile.isWordChar (profile_toUpper c)

@[simp]
theorem isAlphabetic_toUpper (c : Char) :
    isAlphabetic c.toUpper = isAlphabetic c :=
  congrArg Profile.isAlphabetic (profile_toUpper c)

@[simp]
theorem isDigit_toUpper (c : Char) : c.toUpper.isDigit = c.isDigit :=
  congrArg Profile.isDigit (profile_toUpper c)

@[simp]
theorem upperChar_toUpper (c : Char) : upperChar c.toUpper = upperChar c :=
  congrArg Profile.upper (profile_toUpper c)

theorem toUpper_beq {m : Char} (hm : m ∈ marks) (c : Char) :
    (c.toUpper == m) = (c == m) :=
  List.map_inj_left.1 (congrArg Profile.isMark (profile_toUpper c)) m hm

theorem toUpper_mark {m : Char} (hm : m ∈ marks) : m.toUpper = m := by
  have hbeq := toUpper_beq hm m
  rwa [beq_self_eq_true, beq_iff_eq] at hbeq

theorem map_toUpper_beq {m : Char} (hm : m ∈ marks) (c : Option Char) :
    (c.map Char.toUpper == some m) = (c == some m) := by
  cases c with
  | none => rfl
  | some c => exact toUpper_beq hm c

/-! ## Cuts -/

/-- The text with its ASCII letters in upper case. -/
def raise (text : Text) : Text := text.map Char.toUpper

@[simp]
theorem raise_nil : raise [] = [] := rfl

@[simp]
theorem raise_cons (c : Char) (cs : Text) :
    raise (c :: cs) = c.toUpper :: raise cs := rfl

@[simp]
theorem raise_append (a b : Text) : raise (a ++ b) = raise a ++ raise b :=
  List.map_append

@[simp]
theorem head?_raise (text : Text) :
    (raise text).head? = text.head?.map Char.toUpper := List.head?_map

theorem reverse_raise (text : Text) :
    (raise text).reverse = raise text.reverse := List.map_reverse.symm

@[simp]
theorem width_raise (text : Text) : width (raise text) = width text := by
  induction text with
  | nil => rfl
  | cons c cs ih => simp [ih]

@[simp]
theorem upTo_raise (text : Text) (offset : Nat) :
    (raise text).upTo offset = raise (text.upTo offset) := by
  induction text generalizing offset with
  | nil => rfl
  | cons c cs ih =>
    rw [raise_cons, upTo, upTo, utf8Size_toUpper, ih]
    split <;> rfl

@[simp]
theorem after_raise (text : Text) (offset : Nat) :
    (raise text).after offset = raise (text.after offset) := by
  induction text generalizing offset with
  | nil => rfl
  | cons c cs ih =>
    rw [raise_cons, after, after, utf8Size_toUpper, ih]
    split <;> rfl

@[simp]
theorem slice_raise (text : Text) (start stop : Nat) :
    (raise text).slice start stop = raise (text.slice start stop) := by
  rw [slice, after_raise, upTo_raise, slice]

@[simp]
theorem isBoundary_raise (text : Text) (offset : Nat) :
    (raise text).isBoundary offset = text.isBoundary offset := by
  rw [isBoundary, floor, upTo_raise, width_raise, isBoundary, floor]

/-- A run of characters of a class that letters do not leave by being raised. -/
theorem takeWhile_raise {p : Char → Bool} (hp : ∀ c, p c.toUpper = p c)
    (text : Text) : (raise text).takeWhile p = raise (text.takeWhile p) := by
  have hcomp : p ∘ Char.toUpper = p := funext hp
  rw [raise, List.takeWhile_map, hcomp, raise]

theorem dropWhile_raise {p : Char → Bool} (hp : ∀ c, p c.toUpper = p c)
    (text : Text) : (raise text).dropWhile p = raise (text.dropWhile p) := by
  have hcomp : p ∘ Char.toUpper = p := funext hp
  rw [raise, List.dropWhile_map, hcomp, raise]

theorem trim_raise (text : Text) : trim (raise text) = raise (trim text) := by
  have hstart : ∀ text : Text,
      trimStart (raise text) = raise (trimStart text) :=
    dropWhile_raise isBlank_toUpper
  rw [trim, hstart, reverse_raise, hstart, reverse_raise, trim]

theorem statementBounds_raise (text : Text) (offset : Nat) :
    (raise text).statementBounds offset = text.statementBounds offset := by
  have hsemicolon : ∀ c : Char, (c.toUpper != ';') = (c != ';') := by
    intro c
    rw [bne, toUpper_beq (by decide), bne]
  rw [statementBounds_eq, statementBounds_eq, upTo_raise, after_raise,
    reverse_raise, takeWhile_raise hsemicolon, takeWhile_raise hsemicolon,
    width_raise, width_raise, width_raise]

/-! ## Positions -/

theorem startingBefore_raise (text : Text) (offset : Nat) :
    (raise text).startingBefore offset
      = raise (text.startingBefore offset) := by
  induction text generalizing offset with
  | nil => rfl
  | cons c cs ih =>
    rw [raise_cons, startingBefore, startingBefore, utf8Size_toUpper, ih]
    split <;> rfl

theorem advance_raise (place : Position) (text : Text) :
    advance place (raise text) = advance place text := by
  induction text generalizing place with
  | nil => rfl
  | cons c cs ih =>
    rw [raise_cons, advance, advance, toUpper_beq (by decide), ih, ih]

/-- Raising the letters of a text moves no span. -/
theorem locate_raise (text : Text) (offset length : Nat) :
    Span.locate (raise text) offset length
      = Span.locate text offset length := by
  have hposition : (raise text).position offset = text.position offset := by
    rw [position, startingBefore_raise, advance_raise, position]
  have hhighlighted : ∀ start stop,
      Span.highlighted (raise text) start stop
        = Span.highlighted text start stop := by
    intro start stop
    rw [Span.highlighted, isBoundary_raise, isBoundary_raise, slice_raise,
      raise, List.length_map, Span.highlighted]
  rw [Span.locate, hposition, width_raise, hhighlighted, Span.locate]

/-! ## Masking -/

/-- The scanner is not in a name that is quoted by a letter. -/
def Mode.Marked (mode : Mode) : Prop :=
  ∀ close, mode = .quoted close → close ∈ marks

theorem Mode.marked_code : Mode.code.Marked := fun _ h => nomatch h

theorem Mode.marked_next {mode : Mode} (h : mode.Marked) (c : Char)
    (following : Option Char) : (mode.next c following).Marked := by
  intro close hclose
  cases mode with
  | code =>
    simp only [next] at hclose
    split at hclose
    · cases hclose
    · split at hclose
      · cases hclose
      · split at hclose
        · cases hclose
        · split at hclose
          · rename_i hquote
            cases hclose
            simp only [Bool.or_eq_true, beq_iff_eq] at hquote
            rcases hquote with rfl | rfl <;> decide
          · cases hclose
  | lineOpening => cases hclose
  | lineComment =>
    simp only [next] at hclose
    split at hclose <;> cases hclose
  | blockOpening => cases hclose
  | blockComment =>
    simp only [next] at hclose
    split at hclose <;> cases hclose
  | blockClosing => cases hclose
  | string =>
    simp only [next] at hclose
    split at hclose <;> cases hclose
  | quoted own =>
    simp only [next] at hclose
    split at hclose
    · cases hclose
    · exact h close hclose

theorem Mode.next_toUpper {mode : Mode} (h : mode.Marked) (c : Char)
    (following : Option Char) :
    mode.next c.toUpper (following.map Char.toUpper)
      = mode.next c following := by
  cases mode with
  | code =>
    have hquoted : (c == '"' || c == '\x60') = true → c.toUpper = c := by
      intro hquote
      simp only [Bool.or_eq_true, beq_iff_eq] at hquote
      rcases hquote with rfl | rfl <;> rfl
    simp (disch := decide) only [next, toUpper_beq, map_toUpper_beq]
    split
    · rfl
    · split
      · rfl
      · split
        · rfl
        · split
          · rename_i hquote
            rw [hquoted hquote]
          · rfl
  | lineOpening => rfl
  | lineComment => simp (disch := decide) only [next, toUpper_beq]
  | blockOpening => rfl
  | blockComment =>
    simp (disch := decide) only [next, toUpper_beq, map_toUpper_beq]
  | blockClosing => rfl
  | string => simp (disch := decide) only [next, toUpper_beq]
  | quoted close => simp only [next, toUpper_beq (h close rfl)]

theorem blankOut_toUpper (c : Char) :
    blankOut c.toUpper = raise (blankOut c) := by
  rw [blankOut, blankOut, toUpper_beq (by decide), toUpper_beq (by decide),
    utf8Size_toUpper]
  split
  · rfl
  · rw [raise, List.map_replicate]
    rfl

theorem maskFrom_raise (masking : Masking) {mode : Mode} (h : mode.Marked)
    (text : Text) :
    maskFrom masking mode (raise text)
      = raise (maskFrom masking mode text) := by
  induction text generalizing mode with
  | nil => rfl
  | cons c cs ih =>
    have hhides : ∀ next,
        masking.hides mode next c.toUpper = masking.hides mode next c := by
      intro next
      rw [Masking.hides, Masking.hides, bne, toUpper_beq (by decide), bne]
    have hrest := ih (Mode.marked_next h c cs.head?)
    rw [raise_cons, maskFrom, maskFrom, head?_raise, Mode.next_toUpper h,
      hhides, hrest, raise_append, blankOut_toUpper]
    split <;> rfl

theorem sanitize_raise (text : Text) :
    (raise text).sanitize = raise text.sanitize :=
  maskFrom_raise .commentsAndStrings Mode.marked_code text

theorem maskComments_raise (text : Text) :
    (raise text).maskComments = raise text.maskComments :=
  maskFrom_raise .comments Mode.marked_code text

/-! ## Quotes and parentheses -/

theorem openQuote_raise (opened : Option Nat) (before : Option Char)
    (offset : Nat) (text : Text) :
    Finding.openQuote opened (before.map Char.toUpper) offset (raise text)
      = Finding.openQuote opened before offset text := by
  induction text generalizing opened before offset with
  | nil => rfl
  | cons c cs ih =>
    rw [raise_cons, Finding.openQuote, Finding.openQuote,
      toUpper_beq (by decide), bne, map_toUpper_beq (by decide), bne,
      utf8Size_toUpper]
    exact ih _ (some c) _

theorem event_toUpper (state : Nesting) (c : Char) :
    state.event c.toUpper = state.event c := by
  rw [Nesting.event, Nesting.event, toUpper_beq (by decide),
    toUpper_beq (by decide)]

theorem step_toUpper (state : Nesting) (c : Char) :
    state.step c.toUpper = state.step c := by
  rw [Nesting.step, Nesting.step, toUpper_beq (by decide), event_toUpper]

theorem closingFrom_raise (state : Nesting) (offset : Nat) (text : Text) :
    closingFrom state offset (raise text) = closingFrom state offset text := by
  induction text generalizing state offset with
  | nil => rfl
  | cons c cs ih =>
    rw [raise_cons, closingFrom, closingFrom, step_toUpper, event_toUpper,
      utf8Size_toUpper, ih]

theorem matchingParen_raise (text : Text) (start : Nat) :
    (raise text).matchingParen start = text.matchingParen start := by
  rw [matchingParen, after_raise, closingFrom_raise, matchingParen]

theorem unopenedParens_raise (state : Nesting) (offset : Nat) (text : Text) :
    Finding.unopenedParens state offset (raise text)
      = Finding.unopenedParens state offset text := by
  induction text generalizing state offset with
  | nil => rfl
  | cons c cs ih =>
    rw [raise_cons, Finding.unopenedParens, Finding.unopenedParens,
      step_toUpper, event_toUpper, utf8Size_toUpper, ih]

theorem unclosedParens_raise (state : Nesting) (offset : Nat)
    (opened : List Nat) (text : Text) :
    Finding.unclosedParens state offset opened (raise text)
      = Finding.unclosedParens state offset opened text := by
  induction text generalizing state offset opened with
  | nil => rfl
  | cons c cs ih =>
    rw [raise_cons, Finding.unclosedParens, Finding.unclosedParens,
      step_toUpper, event_toUpper, utf8Size_toUpper, ih]

/-! ## Names -/

theorem toList_foldAscii (s : String) :
    (foldAscii s).toList = raise s.toList := by
  rw [foldAscii, String.toList_ofList, raise]

theorem foldAscii_ofList (text : Text) :
    foldAscii (String.ofList text) = String.ofList (raise text) := by
  rw [foldAscii, String.toList_ofList, raise]

@[simp]
theorem foldAscii_foldAscii (s : String) :
    foldAscii (foldAscii s) = foldAscii s := by
  rw [foldAscii, toList_foldAscii, raise, List.map_map]
  exact congrArg String.ofList
    (List.map_congr_left fun c _ => toUpper_toUpper c)

@[simp]
theorem upper_foldAscii (s : String) : upper (foldAscii s) = upper s := by
  rw [upper, toList_foldAscii, raise, List.flatMap_map, upper]
  simp only [upperChar_toUpper]

theorem foldAscii_append (a b : String) :
    foldAscii (a ++ b) = foldAscii a ++ foldAscii b := by
  rw [foldAscii, String.toList_append, List.map_append, String.ofList_append,
    foldAscii, foldAscii]

/-- Only marks give marks. -/
theorem eq_of_raise_eq {text ms : Text} (hms : ms.all marks.contains = true)
    (h : raise text = ms) : text = ms := by
  induction text generalizing ms with
  | nil => exact h
  | cons c cs ih =>
    subst h
    simp only [raise_cons, List.all_cons, Bool.and_eq_true,
      List.contains_iff_mem] at hms
    have hc := toUpper_beq hms.1 c
    rw [beq_self_eq_true] at hc
    rw [raise_cons, ← ih hms.2 rfl, ← beq_iff_eq.1 hc.symm]

theorem foldAscii_beq_cast (s : String) :
    (foldAscii s == "::") = (s == "::") := by
  rw [Bool.eq_iff_iff, beq_iff_eq, beq_iff_eq]
  constructor
  · intro h
    have htext : raise s.toList = "::".toList := by rw [← toList_foldAscii, h]
    exact String.toList_inj.1 (eq_of_raise_eq (by decide) htext)
  · rintro rfl
    decide

/-- A path is raised name by name. -/
theorem foldAscii_intercalate (names : List String) :
    String.intercalate "." (names.map foldAscii)
      = foldAscii (String.intercalate "." names) := by
  have hdot : foldAscii "." = "." := by decide
  induction names with
  | nil => decide
  | cons first names ih =>
    cases names with
    | nil => simp
    | cons second names =>
      rw [List.map_cons, List.map_cons, String.intercalate_cons_cons,
        String.intercalate_cons_cons, foldAscii_append, foldAscii_append, hdot,
        ← ih, List.map_cons]

theorem toUpper_bne_dot (c : Char) : (c.toUpper != '.') = (c != '.') := by
  rw [bne, toUpper_beq (by decide), bne]

theorem lastSegment_foldAscii (path : String) :
    lastSegment (foldAscii path) = foldAscii (lastSegment path) := by
  rw [lastSegment, toList_foldAscii, reverse_raise,
    takeWhile_raise toUpper_bne_dot, reverse_raise, lastSegment,
    foldAscii_ofList]

theorem beforeLastDot_foldAscii (path : String) :
    beforeLastDot (foldAscii path) = (beforeLastDot path).map foldAscii := by
  rw [beforeLastDot, toList_foldAscii, reverse_raise,
    dropWhile_raise toUpper_bne_dot, beforeLastDot]
  cases path.toList.reverse.dropWhile (· != '.') with
  | nil => rfl
  | cons dot qualifier =>
    simp only [raise_cons, reverse_raise, Option.map_some, foldAscii_ofList]

/-- A catalog does not see the case of ASCII letters in the names of tables
and schemas. -/
theorem table?_foldAscii (catalog : Catalog) (name : String) :
    catalog.table? (foldAscii name) = catalog.table? name := by
  have hschema : ∀ schema,
      catalog.schema? (foldAscii schema) = catalog.schema? schema := by
    intro schema
    rw [Catalog.schema?, upper_foldAscii, Catalog.schema?]
  rw [Catalog.table?, Catalog.table?, QualifiedName.parse, QualifiedName.parse,
    lastSegment_foldAscii, beforeLastDot_foldAscii]
  cases beforeLastDot name with
  | none => simp only [Option.map_none, upper_foldAscii]
  | some qualifier =>
    simp only [Option.map_some, lastSegment_foldAscii, upper_foldAscii, hschema]

end QueryAssist.Text
