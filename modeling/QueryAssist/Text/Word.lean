import QueryAssist.Text.Alphabetic
import QueryAssist.Text.Numeric
import QueryAssist.Text.Offset

/-!
# Words

A word is a run of letters, numbers and the signs that SQL dialects
allow in names.
-/

namespace QueryAssist.Text

/-- Whether a character may stand in a word. -/
def isWordChar (c : Char) : Bool :=
  isAlphabetic c || isNumeric c || c == '_' || c == '$' || c == '#' || c == '@'

/-- Offset where the word that ends at a boundary starts; the boundary itself if
no word ends there. -/
def wordStart (text : Text) (boundary : Nat) : Nat :=
  boundary - width ((upTo text boundary).reverse.takeWhile isWordChar)

/-- Start and end of the word that contains a boundary or ends there. An offset
past the end counts as the end. -/
def wordAt (text : Text) (offset : Nat) : Option (Nat × Nat) :=
  let offset := min offset (width text)
  if !isBoundary text offset then none
  else
    let start := wordStart text offset
    let stop := offset + width ((after text offset).takeWhile isWordChar)
    if start = stop then none else some (start, stop)

end QueryAssist.Text
