import QueryAssist.Text.CaseMap
import QueryAssist.Text.Cased

/-!
# Case of names

Names are compared in two ways. Tables, schemas, aliases and subqueries are
keyed by the full Unicode upper-case form; keywords and columns are compared
ignoring the case of ASCII letters only.
-/

namespace QueryAssist.Text

/-! ## Full case mapping -/

/-- Upper-case form of a name: every character is replaced by its own image. -/
def upper (s : String) : String := String.ofList (s.toList.flatMap upperChar)

/-- Whether the first character of `cs` that is not case-ignorable is cased. -/
def startsCased (cs : List Char) : Bool :=
  match cs.dropWhile isCaseIgnorable with
  | c :: _ => isCased c
  | [] => false

/-- Lower-case form of `cs` after the characters `before`, nearest first. A
capital sigma that ends a word becomes the final sigma. -/
def lowerFrom (before : List Char) : List Char → List Char
  | [] => []
  | c :: cs =>
    let image :=
      if c == 'Σ' then
        (if startsCased before && !startsCased cs then ['ς'] else ['σ'])
      else lowerChar c
    image ++ lowerFrom (c :: before) cs

/-- Lower-case form of a name. -/
def lower (s : String) : String := String.ofList (lowerFrom [] s.toList)

/-! ## ASCII case -/

/-- The name with its ASCII letters in upper case and all else unchanged. -/
def foldAscii (s : String) : String := String.ofList (s.toList.map Char.toUpper)

/-- Whether two names differ at most in the case of ASCII letters. -/
def sameAscii (a b : String) : Bool := foldAscii a == foldAscii b

theorem sameAscii_iff {a b : String} :
    sameAscii a b = true ↔ foldAscii a = foldAscii b := by
  simp [sameAscii]

end QueryAssist.Text
