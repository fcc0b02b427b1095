import QueryAssist.Dialect.Basic
import QueryAssist.Text.Alphabetic
import QueryAssist.Text.Blank

/-!
# Lexemes of statements

The pieces that a statement is read as. Other than in a query under the
cursor, a text that ends inside a literal, a quoted name or a block comment is
an error here.
-/

namespace QueryAssist.Ddl

inductive Lexeme where
  /-- A name or keyword, with the quote around it if it has one. -/
  | word (text : String) (quote : Option Char)
  | number (text : String)
  /-- A literal in single quotes. -/
  | string (text : String)
  /-- A literal in double quotes, where these do not quote names. -/
  | doubleQuoted (text : String)
  /-- A literal of any other form. -/
  | literal
  | symbol (text : String)
  deriving DecidableEq, Repr

namespace Lexeme

/-- Whether the lexeme is the keyword, which is in upper case. A quoted word is
no keyword. -/
def isKeyword (keyword : String) : Lexeme → Bool
  | word text none => Text.upper text == keyword
  | _ => false

/-- Whether the lexeme is one of the keywords. -/
def isOneOf (keywords : List String) : Lexeme → Bool
  | word text none => keywords.contains (Text.upper text)
  | _ => false

end Lexeme

/-! ## Characters of names -/

/-- Whether a character may start a bare name. -/
def startsName (dialect : Dialect) (c : Char) : Bool :=
  match dialect with
  | .postgresql => Text.isAlphabetic c || c == '_'
  | .mysql =>
    c.isAlpha || c == '_' || c == '$' || c == '@'
      || (0x80 ≤ c.toNat && c.toNat ≤ 0xFFFF)
  | .db2 => Text.isAlphabetic c || c == '_' || c == '#' || c == '@'

/-- Whether a character may stand in a bare name. -/
def continuesName (dialect : Dialect) (c : Char) : Bool :=
  startsName dialect c || c.isDigit || (c == '$' && dialect != .mysql)

/-- Whether a character quotes names. -/
def quotesName (dialect : Dialect) (c : Char) : Bool :=
  match dialect with
  | .postgresql => c == '"'
  | .mysql => c == '\x60'
  | .db2 => c == '"' || c == '\x60'

/-! ## Quoted texts

Each function gives the text up to the closing delimiter, and how many
characters it takes with the delimiter. -/

/-- A text up to a quote that is not doubled. With `backslash`, a backslash
makes the character after it plain. -/
def quotedText (quote : Char) (backslash : Bool) :
    List Char → Option (List Char × Nat)
  | [] => none
  | [c] => if c = quote then some ([], 1) else none
  | c :: d :: rest =>
    if c = quote then
      if d = quote then
        (quotedText quote backslash rest).map fun (text, n) =>
          (c :: text, n + 2)
      else some ([], 1)
    else if backslash && c == '\\' then
      (quotedText quote backslash rest).map fun (text, n) => (d :: text, n + 2)
    else
      (quotedText quote backslash (d :: rest)).map fun (text, n) =>
        (c :: text, n + 1)

/-- Number of characters up to the end of a block comment that stands in `outer`
others, the delimiter included. -/
def commentLength (nests : Bool) (outer : Nat) : List Char → Option Nat
  | c :: d :: rest =>
    if c == '*' && d == '/' then
      match outer with
      | 0 => some 2
      | n + 1 => (commentLength nests n rest).map (· + 2)
    else if nests && c == '/' && d == '*' then
      (commentLength nests (outer + 1) rest).map (· + 2)
    else (commentLength nests outer (d :: rest)).map (· + 1)
  | _ => none

/-- Number of characters up to the end of the first copy of `tag`. -/
def tagLength (tag : List Char) : List Char → Option Nat
  | [] => none
  | c :: cs =>
    if tag.isPrefixOf (c :: cs) then some tag.length
    else (tagLength tag cs).map (· + 1)

/-! ## Numbers and symbols -/

/-- Number of characters of an exponent in front of a text. -/
def exponentLength : List Char → Nat
  | c :: rest =>
    if c == 'e' || c == 'E' then
      let sign :=
        if rest.head?.any (fun s => s == '+' || s == '-') then 1 else 0
      let digits := (rest.drop sign).takeWhile Char.isDigit
      if digits.isEmpty then 0 else 1 + sign + digits.length
    else 0
  | [] => 0

/-- Number of characters of a number in front of a text. -/
def numberLength (text : List Char) : Nat :=
  let whole := (text.takeWhile Char.isDigit).length
  let rest := text.drop whole
  let fraction :=
    if rest.head? = some '.' then 1 + (rest.tail.takeWhile Char.isDigit).length
    else 0
  whole + fraction + exponentLength (rest.drop fraction)

/-- Symbols of more than one character, longer ones first. -/
def longSymbols : List String :=
  ["!~*", "->>", "::", "->", "||", "<>", "<=", ">=", "!=", "==", "=>", ":=",
    "<<", ">>", "~*", "!~"]

/-- The symbol in front of a text. -/
def symbolOf (text : List Char) : String :=
  (longSymbols.find? (·.toList.isPrefixOf text)).getD
    (String.ofList (text.take 1))

/-! ## Lexemes -/

/-- Letters that may stand right before the quote of a literal. -/
def introducesLiteral (dialect : Dialect) (c : Char) : Bool :=
  ['n', 'N', 'e', 'E', 'x', 'X'].contains c
    || (dialect == .db2 && ['b', 'B', 'r', 'R'].contains c)

/-- What stands in front of a text, `none` for blanks and comments, and the
number of characters it takes. -/
def front (dialect : Dialect) : List Char → Option (Option Lexeme × Nat)
  | [] => none
  | c :: cs =>
    let lineLength := (cs.takeWhile (· != '\n')).length + 1
    if Text.isBlank c then some (none, 1)
    else if introducesLiteral dialect c && cs.head? == some '\'' then
      (quotedText '\'' (c == 'e' || c == 'E') cs.tail).map fun (_, n) =>
        (some .literal, n + 2)
    else if dialect == .mysql && c == '#' then some (none, lineLength)
    else if startsName dialect c then
      let text := c :: cs.takeWhile (continuesName dialect)
      some (some (.word (String.ofList text) none), text.length)
    else if c == '\'' then
      (quotedText c (dialect == .mysql) cs).map fun (text, n) =>
        (some (.string (String.ofList text)), n + 1)
    else if quotesName dialect c then
      (quotedText c false cs).map fun (text, n) =>
        (some (.word (String.ofList text) (some c)), n + 1)
    else if c == '"' then
      (quotedText c (dialect == .mysql) cs).map fun (text, n) =>
        (some (.doubleQuoted (String.ofList text)), n + 1)
    else if c.isDigit || (c == '.' && cs.head?.any Char.isDigit) then
      let n := numberLength (c :: cs)
      let tail :=
        if dialect == .mysql then
          (cs.drop (n - 1)).takeWhile (continuesName dialect)
        else []
      let text := String.ofList ((c :: cs).take n ++ tail)
      some (some (if tail.isEmpty then .number text else .word text none),
        n + tail.length)
    else if c == '-' && cs.head? == some '-'
      && (dialect != .mysql || cs.tail.head? == some ' ') then
      some (none, lineLength)
    else if c == '/' && cs.head? == some '*' then
      (commentLength (dialect != .mysql) 0 cs.tail).map fun n => (none, n + 2)
    else if c == '$' then
      let name :=
        cs.takeWhile fun d => Text.isAlphabetic d || d.isDigit || d == '_'
      let rest := cs.drop name.length
      if rest.head? == some '$' then
        (tagLength ('$' :: name ++ ['$']) rest.tail).map fun n =>
          (some .literal, name.length + 2 + n)
      else some (some .literal, name.length + 1)
    else
      let symbol := symbolOf (c :: cs)
      some (some (.symbol symbol), symbol.length)

/-- The lexemes of a text after its first `skip` characters. -/
def lexemesFrom (dialect : Dialect) (skip : Nat) :
    List Char → Option (List Lexeme)
  | [] => some []
  | c :: cs =>
    match skip with
    | n + 1 => lexemesFrom dialect n cs
    | 0 => do
      let (lexeme, taken) ← front dialect (c :: cs)
      return lexeme.toList ++ (← lexemesFrom dialect (taken - 1) cs)

/-- The lexemes of a text, unless it ends inside one. -/
def lexemes (dialect : Dialect) (text : List Char) : Option (List Lexeme) :=
  lexemesFrom dialect 0 text

end QueryAssist.Ddl
