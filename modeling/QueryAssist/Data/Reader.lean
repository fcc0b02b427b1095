/-!
# Readers

A reader takes a value off the front of a text, which is a list of characters
or of tokens, or fails. After a failed alternative the next one starts where
the first did.
-/

namespace QueryAssist

/-- Reads a value from the front of a list of symbols: the characters or the
tokens of a text. -/
abbrev Reader (σ : Type) := StateT (List σ) Option

namespace Reader

/-- The value of a text that a reader takes whole. -/
def run? (reader : Reader σ α) (text : List σ) : Option α :=
  match StateT.run reader text with
  | some (a, []) => some a
  | _ => none

/-- The symbol in front. -/
def peek? : Reader σ (Option σ) := return (← get).head?

/-- Takes one symbol of a class. -/
def satisfying (p : σ → Bool) : Reader σ σ := do
  match ← get with
  | c :: cs => if p c then set cs; return c else failure
  | [] => failure

/-- Takes this symbol. -/
def mark [BEq σ] (c : σ) : Reader σ Unit := discard (satisfying (· == c))

/-- Takes these symbols. -/
def marks [BEq σ] : List σ → Reader σ Unit
  | [] => pure ()
  | c :: cs => do mark c; marks cs

/-- Takes the longest run of symbols of a class. -/
def runOf (p : σ → Bool) : Reader σ (List σ) := do
  let cs ← get
  set (cs.dropWhile p)
  return cs.takeWhile p

/-- Takes at least one symbol of a class. -/
def runOf1 (p : σ → Bool) : Reader σ (List σ) := do
  return (← satisfying p) :: (← runOf p)

/-- Takes a value if there is one. -/
def optionally (reader : Reader σ α) : Reader σ (Option α) :=
  (some <$> reader) <|> pure none

/-- Takes values as long as there are any, at most `n`. -/
def upTo (reader : Reader σ α) : Nat → Reader σ (List α)
  | 0 => return []
  | n + 1 => do
    match ← optionally reader with
    | some a => return a :: (← upTo reader n)
    | none => return []

/-- Takes values as long as there are any. A reader that takes at least one
symbol each time is never asked more often than there are symbols. -/
def many (reader : Reader σ α) : Reader σ (List α) := do
  upTo reader ((← get).length + 1)

/-- Takes values with a mark between each two; at least one. -/
def separated1 (between : Reader σ Unit)
    (reader : Reader σ α) : Reader σ (List α) := do
  return (← reader) :: (← many (do between; reader))

/-- Takes values with a mark between each two. -/
def separated (between : Reader σ Unit)
    (reader : Reader σ α) : Reader σ (List α) :=
  separated1 between reader <|> pure []

/-- The symbols that a reader takes. -/
def taken (reader : Reader σ α) : Reader σ (List σ) := do
  let before ← get
  discard reader
  return before.take (before.length - (← get).length)

/-- Takes what stands for the end of the text. -/
def ending : Reader σ Unit := do
  unless (← get).isEmpty do failure

end Reader

end QueryAssist
