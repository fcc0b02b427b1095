import QueryAssist.Data.Basic
import QueryAssist.Data.Number
import QueryAssist.Data.Reader

/-!
# Reading JSON

The strict grammar: no byte order mark, no raw control characters in strings, no
half of a surrogate pair, no number beyond the range of a double, and at most
`nesting` arrays and objects around a value.
-/

namespace QueryAssist.Data.Json

open Reader

/-- How many arrays and objects may stand around a value. -/
def nesting : Nat := 127

def isBlank (c : Char) : Bool := c == ' ' || c == '\n' || c == '\t' || c == '\r'

def blanks : Reader Char Unit := discard (runOf isBlank)

/-! ## Strings -/

/-- The code unit of four hexadecimal digits in front. -/
def unit? (text : List Char) : Option Nat :=
  if (text.take 4).length = 4 then hexNumber? (text.take 4) else none

/-- The character of a `\u` escape, with the number of characters after the `u`
that it takes. A high surrogate needs the low one in a second escape. -/
def unicodeEscape? (text : List Char) : Option (Char × Nat) := do
  let high ← unit? text
  if 0xD800 ≤ high ∧ high < 0xDC00 then
    guard ((text.drop 4).take 2 == ['\\', 'u'])
    let low ← unit? (text.drop 6)
    guard (0xDC00 ≤ low ∧ low < 0xE000)
    return (Char.ofNat (0x10000 + (high - 0xD800) * 0x400 + (low - 0xDC00)), 10)
  else if 0xDC00 ≤ high ∧ high < 0xE000 then none
  else return (Char.ofNat high, 4)

/-- The character that an escape stands for, with the number of characters after
the backslash that it takes. -/
def escape? : List Char → Option (Char × Nat)
  | '"' :: _ => some ('"', 1)
  | '\\' :: _ => some ('\\', 1)
  | '/' :: _ => some ('/', 1)
  | 'b' :: _ => some ('\x08', 1)
  | 'f' :: _ => some ('\x0c', 1)
  | 'n' :: _ => some ('\n', 1)
  | 'r' :: _ => some ('\r', 1)
  | 't' :: _ => some ('\t', 1)
  | 'u' :: rest => (unicodeEscape? rest).map fun (c, taken) => (c, taken + 1)
  | _ => none

/-- The rest of a string after its first `skip` characters, up to the closing
quote, and what follows the quote. -/
def stringBody (skip : Nat) : List Char → Option (List Char × List Char)
  | [] => none
  | c :: cs =>
    match skip with
    | n + 1 => stringBody n cs
    | 0 =>
      if c = '"' then some ([], cs)
      else if c = '\\' then
        match escape? cs with
        | some (escaped, taken) =>
          (stringBody taken cs).map fun (body, rest) => (escaped :: body, rest)
        | none => none
      else if c < ' ' then none
      else (stringBody 0 cs).map fun (body, rest) => (c :: body, rest)

def string : Reader Char String := do
  mark '"'
  match stringBody 0 (← get) with
  | some (body, rest) =>
    set rest
    return String.ofList body
  | none => failure

/-! ## Numbers -/

/-- The digits before the point: no zero in front of others. -/
def whole : Reader Char (List Char) :=
  (do mark '0'; return ['0']) <|> (do
    let first ← satisfying fun c => '1' ≤ c ∧ c ≤ '9'
    return first :: (← runOf Char.isDigit))

def fraction : Reader Char (List Char) := do
  mark '.'
  runOf1 Char.isDigit

/-- An exponent: its sign and its digits. -/
def exponent : Reader Char (List Char × List Char) := do
  discard (satisfying fun c => c == 'e' || c == 'E')
  let sign ← optionally (satisfying fun c => c == '+' || c == '-')
  return (sign.toList, ← runOf1 Char.isDigit)

def number : Reader Char String := do
  let sign ← optionally (satisfying (· == '-'))
  let digits ← whole
  if (← peek?).any Char.isDigit then failure
  let parts ← if (← peek?) == some '.' then fraction else pure []
  let (expSign, expDigits) ←
    if (← peek?).any (fun c => c == 'e' || c == 'E') then exponent
    else pure ([], [])
  let power : Int := decimal expDigits
  let power := if expSign == ['-'] then -power else power
  unless isFinite (decimal (digits ++ parts)) (power - parts.length) do failure
  return String.ofList (sign.toList ++ digits
    ++ (if parts.isEmpty then [] else '.' :: parts)
    ++ (if expDigits.isEmpty then [] else 'e' :: expSign ++ expDigits))

/-! ## Values -/

def scalar : Reader Char Data := do
  match ← peek? with
  | some 'n' => marks ['n', 'u', 'l', 'l']; return .null
  | some 't' => marks ['t', 'r', 'u', 'e']; return .bool true
  | some 'f' => marks ['f', 'a', 'l', 's', 'e']; return .bool false
  | some '"' => return .string (← string)
  | _ => return .number (← number)

/-- The comma between two items. -/
def comma : Reader Char Unit := do blanks; mark ','; blanks

def list (item : Reader Char Data) : Reader Char Data := do
  mark '['
  blanks
  let items ← separated comma item
  blanks
  mark ']'
  return .list items

def field (value : Reader Char Data) : Reader Char (String × Data) := do
  let name ← string
  blanks
  mark ':'
  blanks
  return (name, ← value)

def record (value : Reader Char Data) : Reader Char Data := do
  mark '\x7b'
  blanks
  let fields ← separated comma (field value)
  blanks
  mark '\x7d'
  return .record fields

/-- A value with at most `depth` arrays and objects one in another. -/
def value : (depth : Nat) → Reader Char Data
  | 0 => scalar
  | depth + 1 => do
    match ← peek? with
    | some '[' => list (value depth)
    | some '\x7b' => record (value depth)
    | _ => scalar

/-- The value in front of a text, and the text after it. -/
def leading? (text : List Char) : Option (Data × List Char) :=
  StateT.run (do blanks; value nesting) text

/-- The value of a text. -/
def parse? (text : List Char) : Option Data :=
  (do blanks; let v ← value nesting; blanks; return v).run? text

end QueryAssist.Data.Json
