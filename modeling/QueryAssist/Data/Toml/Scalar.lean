import QueryAssist.Data.Basic
import QueryAssist.Data.Number
import QueryAssist.Data.Reader

/-!
# Strings, numbers and moments of TOML
-/

namespace QueryAssist.Data.Toml

open Reader

def isBlank (c : Char) : Bool := c == ' ' || c == '\t'

/-- Whether a character may stand on a line: no control character
but the tab. -/
def isPrintable (c : Char) : Bool := c == '\t' || (' ' ≤ c && c != '\x7f')

/-- Number of characters of a line end in front of a text. -/
def lineEndLength : List Char → Nat
  | '\n' :: _ => 1
  | '\r' :: '\n' :: _ => 2
  | _ => 0

/-! ## Strings -/

/-- The character with a code in so many hexadecimal digits in
front of a text. -/
def codeEscape? (digits : Nat) (text : List Char) : Option Char := do
  guard ((text.take digits).length = digits)
  let code ← hexNumber? (text.take digits)
  if h : code.isValidChar then some (Char.ofNatAux code h) else none

/-- The character that an escape stands for, with the number of characters after
the backslash that it takes. -/
def escape? : List Char → Option (Char × Nat)
  | '"' :: _ => some ('"', 1)
  | '\\' :: _ => some ('\\', 1)
  | 'b' :: _ => some ('\x08', 1)
  | 'f' :: _ => some ('\x0c', 1)
  | 'n' :: _ => some ('\n', 1)
  | 'r' :: _ => some ('\r', 1)
  | 't' :: _ => some ('\t', 1)
  | 'u' :: rest => (codeEscape? 4 rest).map (·, 5)
  | 'U' :: rest => (codeEscape? 8 rest).map (·, 9)
  | _ => none

/-- A result with a character in front of its text. -/
def consText (c : Char) (result : Option (List Char × List Char)) :
    Option (List Char × List Char) :=
  result.map fun (text, rest) => (c :: text, rest)

/-- A string between double quotes after its first `skip` characters, and the
text after it. -/
def basicBody (skip : Nat) : List Char → Option (List Char × List Char)
  | [] => none
  | c :: cs =>
    match skip with
    | n + 1 => basicBody n cs
    | 0 =>
      if c = '"' then some ([], cs)
      else if c = '\\' then
        match escape? cs with
        | some (escaped, taken) => consText escaped (basicBody taken cs)
        | none => none
      else if isPrintable c then consText c (basicBody 0 cs)
      else none

/-- A string between single quotes, and the text after it. -/
def literalBody : List Char → Option (List Char × List Char)
  | [] => none
  | c :: cs =>
    if c = '\'' then some ([], cs)
    else if isPrintable c then consText c (literalBody cs)
    else none

/-- Number of characters of blanks and line ends in front of a text, after its
first `skip` ones. -/
def blankLinesLength (skip : Nat) : List Char → Nat
  | [] => 0
  | c :: cs =>
    match skip with
    | n + 1 => blankLinesLength n cs
    | 0 =>
      if isBlank c || c == '\n' then blankLinesLength 0 cs + 1
      else if c == '\r' && cs.head? == some '\n' then blankLinesLength 1 cs + 2
      else 0

/-- Number of characters that a backslash at the end of a line takes, the blank
lines and the indentation after it included. -/
def continuationLength? (text : List Char) : Option Nat :=
  let blanks := (text.takeWhile isBlank).length
  let lineEnd := lineEndLength (text.drop blanks)
  if lineEnd = 0 then none
  else
    some (blanks + lineEnd + blankLinesLength 0 (text.drop (blanks + lineEnd)))

/-- A string of several lines after its first `skip` characters, and the text
after it. Three quotes end it, and up to two right before them belong to it. -/
def multilineBody (quote : Char) (escapes : Bool) (skip : Nat) :
    List Char → Option (List Char × List Char)
  | [] => none
  | c :: cs =>
    match skip with
    | n + 1 => multilineBody quote escapes n cs
    | 0 =>
      if c = quote then
        let count := ((c :: cs).takeWhile (· == quote)).length
        if 3 ≤ count then
          let inside := min (count - 3) 2
          some (List.replicate inside quote, cs.drop (inside + 2))
        else consText c (multilineBody quote escapes 0 cs)
      else if escapes && c == '\\' then
        match continuationLength? cs with
        | some taken => multilineBody quote escapes taken cs
        | none =>
          match escape? cs with
          | some (escaped, taken) =>
            consText escaped (multilineBody quote escapes taken cs)
          | none => none
      else if c = '\r' then
        if cs.head? = some '\n' then multilineBody quote escapes 0 cs else none
      else if c = '\n' || isPrintable c then
        consText c (multilineBody quote escapes 0 cs)
      else none

/-- Takes what a function reads from the text. -/
def body (read : List Char → Option (List Char × List Char)) :
    Reader Char String := do
  match read (← get) with
  | some (text, rest) =>
    set rest
    return String.ofList text
  | none => failure

/-- A string of several lines; a line end right after the opening quotes
is left out. -/
def multilineString (quote : Char) (escapes : Bool) : Reader Char String := do
  marks [quote, quote, quote]
  let text ← get
  set (text.drop (lineEndLength text))
  body (multilineBody quote escapes 0)

/-- A string on one line. -/
def lineString : Reader Char String :=
  (do mark '"'; body (basicBody 0)) <|> (do mark '\''; body literalBody)

def string : Reader Char String :=
  multilineString '"' true <|> multilineString '\'' false <|> lineString

/-! ## Numbers -/

/-- Digits with single underscores between them, without the underscores. -/
def digits (isDigit : Char → Bool) : Reader Char (List Char) := do
  let first ← satisfying isDigit
  let more : Reader Char Char := do
    discard (optionally (mark '_'))
    satisfying isDigit
  return first :: (← many more)

/-- The sign and the digits of a decimal number; no zero in front of others. -/
def signedDigits : Reader Char (Bool × List Char) := do
  let sign ← optionally (satisfying fun c => c == '+' || c == '-')
  let value ← (do mark '0'; return ['0']) <|> digits Char.isDigit
  return (sign == some '-', value)

def float : Reader Char Unit := do
  let special : Reader Char Unit := do
    discard (optionally (satisfying fun c => c == '+' || c == '-'))
    marks ['i', 'n', 'f'] <|> marks ['n', 'a', 'n']
  let exponent : Reader Char Int := do
    discard (satisfying fun c => c == 'e' || c == 'E')
    let sign ← optionally (satisfying fun c => c == '+' || c == '-')
    let value : Int := decimal (← digits Char.isDigit)
    return if sign == some '-' then -value else value
  let finite : Reader Char Unit := do
    let (_, whole) ← signedDigits
    let fraction ← optionally (do mark '.'; digits Char.isDigit)
    let power ← optionally exponent
    if fraction.isNone && power.isNone then failure
    let parts := fraction.getD []
    guard (isFinite (decimal (whole ++ parts)) (power.getD 0 - parts.length))
  special <|> finite

/-- A whole number of 64 bits. -/
def integer : Reader Char Unit := do
  let based (letter : Char) (base : Nat) (isDigit : Char → Bool) :
      Reader Char Unit := do
    marks ['0', letter]
    let value :=
      (← digits isDigit).foldl (fun n c => base * n + (hexValue? c).getD 0) 0
    guard (value < Nat.pow 2 63)
  let plain : Reader Char Unit := do
    let (negative, value) ← signedDigits
    guard
      (decimal value < Nat.pow 2 63 ∨ (negative ∧ decimal value = Nat.pow 2 63))
  based 'x' 16 (fun c => (hexValue? c).isSome)
    <|> based 'o' 8 (fun c => '0' ≤ c && c ≤ '7')
    <|> based 'b' 2 (fun c => c == '0' || c == '1')
    <|> plain

/-! ## Moments -/

/-- A number of exactly so many digits in a range. -/
def fixedNumber (digits least greatest : Nat) : Reader Char Nat := do
  let cs ← get
  let text := cs.take digits
  guard (text.length = digits ∧ text.all Char.isDigit)
  guard (least ≤ decimal text ∧ decimal text ≤ greatest)
  set (cs.drop digits)
  return decimal text

def daysOfMonth (year month : Nat) : Nat :=
  if month = 2 then
    if year % 4 = 0 ∧ (year % 100 ≠ 0 ∨ year % 400 = 0) then 29 else 28
  else if [4, 6, 9, 11].contains month then 30
  else 31

def date : Reader Char Unit := do
  let year ← fixedNumber 4 0 9999
  mark '-'
  let month ← fixedNumber 2 1 12
  mark '-'
  discard (fixedNumber 2 1 (daysOfMonth year month))

def time : Reader Char Unit := do
  discard (fixedNumber 2 0 23)
  mark ':'
  discard (fixedNumber 2 0 59)
  mark ':'
  discard (fixedNumber 2 0 60)
  discard (optionally (do mark '.'; runOf1 Char.isDigit))

def zoneOffset : Reader Char Unit :=
  discard (satisfying fun c => c == 'Z' || c == 'z') <|> (do
    discard (satisfying fun c => c == '+' || c == '-')
    discard (fixedNumber 2 0 23)
    mark ':'
    discard (fixedNumber 2 0 59))

def moment : Reader Char Unit :=
  (do
    date
    discard (optionally do
      discard (satisfying fun c => c == 'T' || c == 't' || c == ' ')
      time
      discard (optionally zoneOffset))) <|> time

/-! ## Scalars -/

def scalar : Reader Char Data :=
  (do return .string (← string))
    <|> (do marks ['t', 'r', 'u', 'e']; return .bool true)
    <|> (do marks ['f', 'a', 'l', 's', 'e']; return .bool false)
    <|> (do return .moment (String.ofList (← taken moment)))
    <|> (do return .number (String.ofList (← taken float)))
    <|> (do return .number (String.ofList (← taken integer)))

end QueryAssist.Data.Toml
