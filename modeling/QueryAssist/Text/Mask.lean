import QueryAssist.Text.Offset

/-!
# Masking comments and string literals

Every analysis runs on a copy of the text in which comments, and the contents of
string literals, are blank. A masked character becomes as many spaces as it has
bytes and line ends stay, so offsets into the copy are offsets into the text.

The scanner reads one character at a time and looks at the one after it. A
two-character delimiter takes it through a mode of its own, in which the second
character is read.
-/

namespace QueryAssist.Text

/-- What the scanner is inside of. -/
inductive Mode where
  | code
  /-- On the second dash of `--`. -/
  | lineOpening
  | lineComment
  /-- On the star of an opening delimiter. -/
  | blockOpening
  | blockComment
  /-- On the slash of a closing delimiter. -/
  | blockClosing
  | string
  /-- In an identifier quoted by `close`. -/
  | quoted (close : Char)
  deriving DecidableEq, Repr

namespace Mode

/-- The mode after `c`, when `following` is the character after it. Block
comments do not nest. -/
def next (mode : Mode) (c : Char) (following : Option Char) : Mode :=
  match mode with
  | code =>
    if c == '-' && following == some '-' then lineOpening
    else if c == '/' && following == some '*' then blockOpening
    else if c == '\'' then string
    else if c == '"' || c == '\x60' then quoted c
    else code
  | lineOpening => lineComment
  | lineComment => if c == '\n' then code else lineComment
  | blockOpening => blockComment
  | blockComment =>
    if c == '*' && following == some '/' then blockClosing else blockComment
  | blockClosing => code
  | string => if c == '\'' then code else string
  | quoted close => if c == close then code else quoted close

/-- Whether a character in this mode belongs to a comment, its
delimiters included. -/
def inComment : Mode → Bool
  | lineOpening | lineComment | blockOpening | blockComment | blockClosing =>
    true
  | code | string | quoted _ => false

/-- The mode after a whole text. -/
def run (mode : Mode) : Text → Mode
  | [] => mode
  | c :: cs => run (mode.next c cs.head?) cs

end Mode

/-- What is blanked besides comments. -/
inductive Masking where
  | comments
  /-- Comments and what stands between the quotes of a string literal. -/
  | commentsAndStrings
  deriving DecidableEq, Repr

/-- Whether `c` is blanked when it leads from `mode` to `next`. -/
def Masking.hides (masking : Masking) (mode next : Mode) (c : Char) : Bool :=
  mode.inComment
    || (mode == .code && next.inComment)
    || (mode == .string && masking == .commentsAndStrings && c != '\'')

/-- As many spaces as the character has bytes; a line end stays. -/
def blankOut (c : Char) : Text :=
  if c == '\n' || c == '\r' then [c] else List.replicate c.utf8Size ' '

/-- The text from `mode` on, with what `masking` hides blanked. -/
def maskFrom (masking : Masking) (mode : Mode) : Text → Text
  | [] => []
  | c :: cs =>
    let next := mode.next c cs.head?
    (if masking.hides mode next c then blankOut c else [c])
      ++ maskFrom masking next cs

/-- The text with comments and the contents of string literals blanked. -/
def sanitize (text : Text) : Text := maskFrom .commentsAndStrings .code text

/-- The text with comments blanked. -/
def maskComments (text : Text) : Text := maskFrom .comments .code text

/-! ## Widths -/

theorem width_replicate_space (n : Nat) : width (List.replicate n ' ') = n := by
  induction n with
  | zero => rfl
  | succ n ih =>
    have h : (' ').utf8Size = 1 := rfl
    simp [List.replicate_succ, ih, h, Nat.add_comm]

theorem width_blankOut (c : Char) : width (blankOut c) = c.utf8Size := by
  unfold blankOut
  split
  · simp
  · exact width_replicate_space _

/-- Masking keeps the width of a text. -/
theorem width_maskFrom (masking : Masking) (mode : Mode) (text : Text) :
    width (maskFrom masking mode text) = width text := by
  induction text generalizing mode with
  | nil => rfl
  | cons c cs ih =>
    simp only [maskFrom, width_append, width_cons, ih]
    split
    · rw [width_blankOut]
    · simp

end QueryAssist.Text
