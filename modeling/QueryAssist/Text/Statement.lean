import QueryAssist.Text.Offset

/-!
# Statements of a text

Statements are divided by semicolons. The text is expected to be masked, so that
no semicolon stands in a comment or a string literal.
-/

namespace QueryAssist.Text

/-- Start and end of the statement at an offset: from after the last semicolon
before it to the first one at or after it. -/
def statementBounds (clean : Text) (offset : Nat) : Nat × Nat :=
  let boundary := clean.floor offset
  let before := (clean.upTo boundary).reverse.takeWhile (· != ';')
  let rest := (clean.after boundary).takeWhile (· != ';')
  (boundary - width before, boundary + width rest)

end QueryAssist.Text
