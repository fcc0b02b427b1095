import QueryAssist.Text.Blank
import QueryAssist.Text.Word
import QueryAssist.Token.Basic

/-!
# Reading tokens

Reading never fails: a character that starts nothing known is an operator of
its own. The reader walks the text one character at a time; where a token
starts, `munch` says how many further characters belong to it, and the reader
steps over those.
-/

namespace QueryAssist

open Text

/-- Number of characters up to and with the first `close`, or all of them. -/
def closedLength (close : Char) : Text → Nat
  | [] => 0
  | c :: cs => if c == close then 1 else closedLength close cs + 1

/-- Number of digits in front. -/
def digitRun (cs : Text) : Nat := (cs.takeWhile Char.isDigit).length

/-- Number of word characters in front. -/
def wordRun (cs : Text) : Nat := (cs.takeWhile isWordChar).length

/-- Number of characters of a number after its first digit: digits, and a point
with digits after it. -/
def numberRun (cs : Text) : Nat :=
  let whole := digitRun cs
  match cs.drop whole with
  | '.' :: d :: rest => if d.isDigit then whole + 2 + digitRun rest else whole
  | _ => whole

/-- Kind of the token that starts with `c`, and the number of characters of
`rest` that belong to it. -/
def munch (c : Char) (rest : Text) : TokenKind × Nat :=
  if c == ',' then (.comma, 0)
  else if c == '.' then (.dot, 0)
  else if c == '(' then (.leftParen, 0)
  else if c == ')' then (.rightParen, 0)
  else if c == ';' then (.semicolon, 0)
  else if c == '*' then (.star, 0)
  else if c == '?' then (.parameter, 0)
  else if c == '\'' then (.string, closedLength c rest)
  else if c == '"' || c == '\x60' then (.quotedName, closedLength c rest)
  else if (c == ':' || c == '@' || c == '$') && rest.head?.any isWordChar then
    (.parameter, wordRun rest)
  else if c == ':' && rest.head? == some ':' then (.operator, 1)
  else if c.isDigit then (.number, numberRun rest)
  else if isAlphabetic c || c == '_' then (.word, wordRun rest)
  else (.operator, 0)

/-- Tokens of a text at `offset`, after its first `skip` characters. -/
def tokensFrom (skip offset : Nat) : Text → List Token
  | [] => []
  | c :: cs =>
    match skip with
    | n + 1 => tokensFrom n (offset + c.utf8Size) cs
    | 0 =>
      if isBlank c then tokensFrom 0 (offset + c.utf8Size) cs
      else
        let (kind, more) := munch c cs
        let chars := c :: cs.take more
        { kind, text := String.ofList chars, start := offset,
          stop := offset + width chars }
          :: tokensFrom more (offset + c.utf8Size) cs

/-- The tokens of a text. -/
def tokenize (text : Text) : List Token := tokensFrom 0 0 text

end QueryAssist
