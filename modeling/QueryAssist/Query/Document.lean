import QueryAssist.Query.Subquery
import QueryAssist.Text.Mask
import QueryAssist.Token.Lexer

/-!
# Documents

A text with all that every analysis starts from: its masked form, its tokens and
its named subqueries.
-/

namespace QueryAssist

structure Document where
  text : Text
  /-- The text with comments and literals blanked. -/
  clean : Text
  /-- Tokens of the masked text. -/
  tokens : List Token
  subqueries : List Subquery
  deriving Repr

/-- The document of a text. -/
def Document.ofText (text : Text) : Document :=
  let clean := text.sanitize
  let tokens := tokenize clean
  { text, clean, tokens, subqueries := subqueriesOf text clean tokens }

/-- The named subqueries of a text. -/
def parseSubqueries (text : Text) : List Subquery :=
  (Document.ofText text).subqueries

end QueryAssist
