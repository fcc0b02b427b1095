import QueryAssist.Text.Offset

/-!
# Offsets in comments

Whether a cursor stands in a comment. Here block comments nest, and quoted
identifiers are read as code.
-/

namespace QueryAssist.Text

/-- What stands open at a place. -/
inductive CommentMode where
  | code
  | string
  | lineComment
  /-- In a block comment that stands in `outer` others. -/
  | blockComment (outer : Nat)
  deriving DecidableEq, Repr

namespace CommentMode

def isComment : CommentMode → Bool
  | lineComment | blockComment _ => true
  | code | string => false

/-- The mode after `c`, and whether it takes the character after it as well. -/
def next (mode : CommentMode) (c : Char)
    (following : Option Char) : CommentMode × Bool :=
  match mode with
  | code =>
    if c == '-' && following == some '-' then (lineComment, true)
    else if c == '/' && following == some '*' then (blockComment 0, true)
    else if c == '\'' then (string, false)
    else (code, false)
  | string => (if c == '\'' then code else string, false)
  | lineComment => (if c == '\n' then code else lineComment, false)
  | blockComment outer =>
    if c == '/' && following == some '*' then (blockComment (outer + 1), true)
    else if c == '*' && following == some '/' then
      (match outer with
        | 0 => code
        | n + 1 => blockComment n, true)
    else (blockComment outer, false)

/-- The mode after a text; its first character is already taken if
`taken` says so. -/
def run (mode : CommentMode) (taken : Bool) : Text → CommentMode
  | [] => mode
  | c :: cs =>
    if taken then run mode false cs
    else
      let (mode, taken) := mode.next c cs.head?
      run mode taken cs

end CommentMode

/-- Whether an offset lies in a line comment or a block comment. -/
def inComment (text : Text) (offset : Nat) : Bool :=
  (CommentMode.run .code false (text.upTo offset)).isComment

end QueryAssist.Text
