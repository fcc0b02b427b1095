import QueryAssist.Text.Comment
import QueryAssist.Text.Mask

/-!
# Comments at the cursor and masked comments

Two scanners tell comments from code: the one that masks a text, and the one
that asks whether a cursor stands in a comment. The second knows no quoted
names. So it reads a text as the first one reads it without the quotes of names,
and the two agree where no quoted name holds what would open a literal or a
comment in code. In block comments only the second one counts how they are
nested, so none may be opened inside another.

Every mode of the masking scanner tells the state of the other one, and the
steps of both keep to that.
-/

namespace QueryAssist.Text

/-! ## What the texts may hold -/

namespace Mode

/-- Whether the opening delimiter of a block comment stands inside a
block comment. -/
def nests (mode : Mode) : Text → Bool
  | [] => false
  | c :: cs =>
    (mode == .blockComment && c == '/' && cs.head? == some '*')
      || nests (mode.next c cs.head?) cs

/-- Whether the scanner is inside a quoted name. -/
def isQuoted : Mode → Bool
  | quoted _ => true
  | _ => false

/-- Whether a quoted name holds what would open a literal or a
comment in code. -/
def opensInName (mode : Mode) : Text → Bool
  | [] => false
  | c :: cs =>
    (mode.isQuoted && CommentMode.code.next c cs.head? != (.code, false))
      || opensInName (mode.next c cs.head?) cs

end Mode

/-- Whether the masking scanner is in a comment after the text. -/
def endsInComment (text : Text) : Bool :=
  Mode.code.run text == .lineComment || Mode.code.run text == .blockComment

/-- A blank for the quote of a name, and any other character itself. -/
def blankNameQuote (c : Char) : Char :=
  if c == '"' || c == '\x60' then ' ' else c

/-- The text without the quotes of names. -/
def withoutNameQuotes (text : Text) : Text := text.map blankNameQuote

/-! ## One scanner seen from the other -/

/-- One step of the scanner for cursors, which passes over a character that is
already taken. -/
def CommentMode.step (state : CommentMode × Bool) (c : Char)
    (following : Option Char) : CommentMode × Bool :=
  if state.2 then (state.1, false) else state.1.next c following

theorem CommentMode.run_cons (state : CommentMode × Bool) (c : Char)
    (cs : Text) :
    CommentMode.run state.1 state.2 (c :: cs)
      = CommentMode.run (step state c cs.head?).1
        (step state c cs.head?).2 cs := by
  rw [CommentMode.run, step]
  split <;> rfl

namespace Mode

/-- The state of the scanner for cursors when the masking scanner
is in a mode. -/
def seen : Mode → CommentMode × Bool
  | code | quoted _ => (.code, false)
  | lineOpening => (.lineComment, true)
  | lineComment => (.lineComment, false)
  | blockOpening => (.blockComment 0, true)
  | blockComment => (.blockComment 0, false)
  | blockClosing => (.code, true)
  | string => (.string, false)

/-- Both scanners take the same step, unless a block comment is opened in
another or the character would open something in a quoted name. -/
theorem step_seen {mode : Mode} {c : Char} {following : Option Char}
    (hnests :
      (mode == .blockComment && c == '/' && following == some '*') = false)
    (hname : (mode.isQuoted
        && CommentMode.code.next c following != (.code, false)) = false) :
    CommentMode.step mode.seen c following = (mode.next c following).seen := by
  cases mode with
  | code =>
    show CommentMode.code.next c following = (Mode.code.next c following).seen
    simp only [CommentMode.next, Mode.next]
    split
    · rfl
    · split
      · rfl
      · split
        · rfl
        -- A quote of a name is no mark for the scanner for cursors.
        · split <;> rfl
  | lineOpening => rfl
  | lineComment =>
    show CommentMode.lineComment.next c following
      = (Mode.lineComment.next c following).seen
    simp only [CommentMode.next, Mode.next]
    split <;> rfl
  | blockOpening => rfl
  | blockComment =>
    have hopens : (c == '/' && following == some '*') = false := by
      simpa using hnests
    show (CommentMode.blockComment 0).next c following
      = (Mode.blockComment.next c following).seen
    simp only [CommentMode.next, Mode.next, hopens, Bool.false_eq_true,
      if_false]
    split <;> rfl
  | blockClosing => rfl
  | string =>
    show CommentMode.string.next c following
      = (Mode.string.next c following).seen
    simp only [CommentMode.next, Mode.next]
    split <;> rfl
  | quoted close =>
    have hplain : CommentMode.code.next c following = (.code, false) := by
      simpa [isQuoted] using hname
    show CommentMode.code.next c following
      = ((Mode.quoted close).next c following).seen
    rw [hplain, Mode.next]
    split <;> rfl

/-- So both scanners stay in step along a text. -/
theorem run_seen {mode : Mode} {text : Text} (hnests : mode.nests text = false)
    (hname : mode.opensInName text = false) :
    CommentMode.run mode.seen.1 mode.seen.2 text = (mode.run text).seen.1 := by
  induction text generalizing mode with
  | nil => rfl
  | cons c cs ih =>
    obtain ⟨hnestsHere, hnestsRest⟩ := Bool.or_eq_false_iff.1 hnests
    obtain ⟨hnameHere, hnameRest⟩ := Bool.or_eq_false_iff.1 hname
    rw [CommentMode.run_cons, step_seen hnestsHere hnameHere, Mode.run]
    exact ih hnestsRest hnameRest

/-! ## The end of a text -/

/-- Whether the scanner is on the second character of a delimiter. -/
def isPending : Mode → Bool
  | lineOpening | blockOpening | blockClosing => true
  | _ => false

/-- A delimiter is begun only if its second character follows. -/
theorem isPending_next (mode : Mode) (c : Char) :
    (mode.next c none).isPending = false := by
  have hnone : ∀ d : Char, ((none : Option Char) == some d) = false :=
    fun _ => rfl
  cases mode with
  | code =>
    simp only [Mode.next, hnone, Bool.and_false, Bool.false_eq_true, if_false]
    split
    · rfl
    · split <;> rfl
  | blockComment =>
    simp only [Mode.next, hnone, Bool.and_false, Bool.false_eq_true, if_false]
    rfl
  | lineComment | string | quoted =>
    rw [Mode.next]
    split <;> rfl
  | lineOpening | blockOpening | blockClosing => rfl

/-- A text never ends between the two characters of a delimiter. -/
theorem isPending_run {mode : Mode} {text : Text}
    (h : mode.isPending = true → text ≠ []) :
    (mode.run text).isPending = false := by
  induction text generalizing mode with
  | nil =>
    rw [Mode.run, Bool.eq_false_iff]
    exact fun hpending => h hpending rfl
  | cons c cs ih =>
    rw [Mode.run]
    apply ih
    rintro hpending rfl
    rw [List.head?_nil, isPending_next] at hpending
    cases hpending

theorem isComment_seen {mode : Mode} (h : mode.isPending = false) :
    mode.seen.1.isComment
      = (mode == .lineComment || mode == .blockComment) := by
  cases mode with
  | lineOpening | blockOpening | blockClosing => cases h
  | _ => rfl

/-! ## Parts of a text -/

/-- What the scanner meets in the first part of a text it meets in the text. -/
theorem nests_of_append {mode : Mode} {a b : Text}
    (h : mode.nests (a ++ b) = false) : mode.nests a = false := by
  induction a generalizing mode with
  | nil => rfl
  | cons c cs ih =>
    obtain ⟨hhere, hrest⟩ := Bool.or_eq_false_iff.1 h
    cases cs with
    | nil => simp [nests]
    | cons d ds => exact Bool.or_eq_false_iff.2 ⟨hhere, ih hrest⟩

/-- A quoted name is entered at a quote only. -/
theorem isQuoted_next {mode : Mode} {c : Char} (hmode : mode.isQuoted = false)
    (hquote : (c == '"' || c == '\x60') = false) (following : Option Char) :
    (mode.next c following).isQuoted = false := by
  cases mode with
  | code =>
    simp only [Mode.next, hquote, Bool.false_eq_true, if_false]
    split
    · rfl
    · split
      · rfl
      · split <;> rfl
  | lineComment | blockComment | string =>
    rw [Mode.next]
    split <;> rfl
  | lineOpening | blockOpening | blockClosing => rfl
  | quoted close => cases hmode

/-- Without the quotes of names the scanner meets no quoted name. -/
theorem opensInName_withoutNameQuotes {mode : Mode}
    (hmode : mode.isQuoted = false) (text : Text) :
    mode.opensInName text.withoutNameQuotes = false := by
  induction text generalizing mode with
  | nil => rfl
  | cons c cs ih =>
    have hquote : (blankNameQuote c == '"' || blankNameQuote c == '\x60')
        = false := by
      rw [blankNameQuote]
      split
      · rfl
      · rename_i h
        simpa using h
    refine Bool.or_eq_false_iff.2 ⟨?_, ih (isQuoted_next hmode hquote _)⟩
    rw [hmode, Bool.false_and]

end Mode

/-! ## Texts without the quotes of names -/

/-- The marks of the scanner for cursors are no quotes of names. -/
theorem blankNameQuote_beq {c mark : Char}
    (hquote : (mark == '"' || mark == '\x60') = false) (hblank : mark ≠ ' ') :
    (blankNameQuote c == mark) = (c == mark) := by
  rw [blankNameQuote]
  split
  · rename_i h
    have hne : ¬ c = mark := by
      rintro rfl
      rw [h] at hquote
      cases hquote
    rw [beq_eq_false_iff_ne.2 hne, beq_eq_false_iff_ne.2 (Ne.symm hblank)]
  · rfl

theorem map_blankNameQuote_beq {following : Option Char} {mark : Char}
    (hquote : (mark == '"' || mark == '\x60') = false) (hblank : mark ≠ ' ') :
    (following.map blankNameQuote == some mark) = (following == some mark) := by
  cases following with
  | none => rfl
  | some c => exact blankNameQuote_beq hquote hblank

/-- The scanner for cursors does not see the quotes of names. -/
theorem CommentMode.next_blankNameQuote (mode : CommentMode) (c : Char)
    (following : Option Char) :
    mode.next (blankNameQuote c) (following.map blankNameQuote)
      = mode.next c following := by
  have hdash : ('-' == '"' || '-' == '\x60') = false := rfl
  have hslash : ('/' == '"' || '/' == '\x60') = false := rfl
  have hstar : ('*' == '"' || '*' == '\x60') = false := rfl
  have hquote : ('\'' == '"' || '\'' == '\x60') = false := rfl
  have hline : ('\n' == '"' || '\n' == '\x60') = false := rfl
  cases mode with
  | code =>
    simp only [next, blankNameQuote_beq hdash (by decide),
      blankNameQuote_beq hslash (by decide),
      blankNameQuote_beq hquote (by decide),
      map_blankNameQuote_beq hdash (by decide),
      map_blankNameQuote_beq hstar (by decide)]
  | string => simp only [next, blankNameQuote_beq hquote (by decide)]
  | lineComment => simp only [next, blankNameQuote_beq hline (by decide)]
  | blockComment outer =>
    simp only [next, blankNameQuote_beq hslash (by decide),
      blankNameQuote_beq hstar (by decide),
      map_blankNameQuote_beq hslash (by decide),
      map_blankNameQuote_beq hstar (by decide)]

theorem CommentMode.run_withoutNameQuotes (mode : CommentMode) (taken : Bool)
    (text : Text) :
    CommentMode.run mode taken text.withoutNameQuotes
      = CommentMode.run mode taken text := by
  induction text generalizing mode taken with
  | nil => rfl
  | cons c cs ih =>
    have hhead : (withoutNameQuotes cs).head? = cs.head?.map blankNameQuote :=
      List.head?_map
    show CommentMode.run mode taken (blankNameQuote c :: withoutNameQuotes cs)
      = _
    rw [CommentMode.run, CommentMode.run, hhead,
      CommentMode.next_blankNameQuote, ih]
    split
    · rfl
    · exact ih _ _

theorem upTo_withoutNameQuotes (text : Text) (offset : Nat) :
    text.withoutNameQuotes.upTo offset
      = (text.upTo offset).withoutNameQuotes := by
  have hsize : ∀ c, (blankNameQuote c).utf8Size = c.utf8Size := by
    intro c
    rw [blankNameQuote]
    split
    · rename_i h
      rcases Bool.or_eq_true_iff.1 h with h | h <;> rw [eq_of_beq h] <;> rfl
    · rfl
  induction text generalizing offset with
  | nil => rfl
  | cons c cs ih =>
    show upTo (blankNameQuote c :: withoutNameQuotes cs) offset = _
    rw [upTo, upTo, hsize, ih]
    split <;> rfl

/-! ## Agreement -/

/-- Where no quoted name holds an opening mark and no block comment is opened in
another, the cursor is in a comment iff the masking scanner is. -/
theorem isComment_run {text : Text} (hnests : Mode.code.nests text = false)
    (hname : Mode.code.opensInName text = false) :
    (CommentMode.run .code false text).isComment = text.endsInComment := by
  have hseen : CommentMode.run .code false text = (Mode.code.run text).seen.1 :=
    Mode.run_seen hnests hname
  have hsettled : (Mode.code.run text).isPending = false :=
    Mode.isPending_run fun h => by cases h
  rw [hseen, Mode.isComment_seen hsettled, endsInComment]

/-- A cursor is taken to be in a comment iff the masking scanner ends in one on
the text before it without the quotes of names; and on the text itself, if no
quoted name before the cursor holds what would open a literal or a comment in
code. In both cases no block comment may be opened inside another. -/
theorem cursor_comments_are_masked_comments (text : Text) (offset : Nat) :
    (Mode.code.nests text.withoutNameQuotes = false →
        text.inComment offset
          = (text.withoutNameQuotes.upTo offset).endsInComment) ∧
      (Mode.code.nests text = false →
        Mode.code.opensInName (text.upTo offset) = false →
        text.inComment offset = (text.upTo offset).endsInComment) := by
  have hfirst : ∀ t : Text,
      Mode.code.nests t = false → Mode.code.nests (t.upTo offset) = false := by
    intro t h
    rw [← upTo_append_after t offset] at h
    exact Mode.nests_of_append h
  constructor
  · intro hnests
    have hname : Mode.code.opensInName (text.withoutNameQuotes.upTo offset)
        = false := by
      rw [upTo_withoutNameQuotes]
      exact Mode.opensInName_withoutNameQuotes rfl _
    rw [← isComment_run (hfirst _ hnests) hname, upTo_withoutNameQuotes,
      CommentMode.run_withoutNameQuotes, inComment]
  · intro hnests hname
    rw [inComment, isComment_run (hfirst _ hnests) hname]

/-- A quoted name with a dash, a block comment and a line comment. -/
def commentedNames : Text := "SELECT \"a-b\" /* \"it's\" */ x -- y".toList

/-- A quoted name with two dashes. -/
def dashedName : Text := "SELECT \"a--b\" ".toList

/-- A quoted name with an apostrophe, and a line comment. -/
def apostropheName : Text := "SELECT \"it's\" -- x".toList

theorem cursor_comments_are_masked_comments_commentedNames :
    Mode.code.nests commentedNames = false ∧
      Mode.code.opensInName (commentedNames.upTo 30) = false ∧
      commentedNames.inComment 30 = true ∧
      Mode.code.nests dashedName.withoutNameQuotes = false ∧
      dashedName.inComment 14 = true := by
  have hnests : Mode.code.nests commentedNames = false := by decide
  have hname : Mode.code.opensInName (commentedNames.upTo 30) = false := by
    decide
  have hunquoted : Mode.code.nests dashedName.withoutNameQuotes = false := by
    decide
  refine ⟨hnests, hname, ?_, hunquoted, ?_⟩
  · rw [(cursor_comments_are_masked_comments commentedNames 30).2 hnests hname]
    decide
  · rw [(cursor_comments_are_masked_comments dashedName 14).1 hunquoted]
    decide

/-- In a quoted name, dashes hide the rest of the line from the cursor, and an
apostrophe hides a comment from it. -/
theorem cursor_comments_differ_in_names :
    Mode.code.nests dashedName = false ∧ dashedName.isBoundary 14 = true ∧
      dashedName.inComment 14 = true ∧
      (dashedName.upTo 14).endsInComment = false ∧
      Mode.code.nests apostropheName = false ∧
      apostropheName.isBoundary 18 = true ∧
      apostropheName.inComment 18 = false ∧
      (apostropheName.upTo 18).endsInComment = true := by
  decide

end QueryAssist.Text
