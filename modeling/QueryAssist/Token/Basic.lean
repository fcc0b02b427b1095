import QueryAssist.Token.Keyword

/-!
# Tokens

The pieces that a text is read as. A token carries its characters and the
bytes it covers.
-/

namespace QueryAssist

inductive TokenKind where
  | word
  /-- A name in double quotes or backquotes. -/
  | quotedName
  | number
  /-- A single-quoted literal. -/
  | string
  /-- A bind parameter: `?`, or a sign and a name. -/
  | parameter
  | comma
  | dot
  | leftParen
  | rightParen
  | semicolon
  | star
  | operator
  deriving DecidableEq, Repr

structure Token where
  kind : TokenKind
  text : String
  /-- Offset of the first byte. -/
  start : Nat
  /-- Offset after the last byte. -/
  stop : Nat
  deriving DecidableEq, Repr

namespace Token

/-- Whether the token is one of the keywords, which are in upper case. -/
def isOneOf (token : Token) (keywords : List String) : Bool :=
  token.kind == .word && Keyword.isOneOf keywords token.text

/-- Whether the token is the keyword, which is in upper case. -/
def isKeyword (token : Token) (keyword : String) : Bool :=
  token.isOneOf [keyword]

/-- A word that is not reserved, or a quoted name. -/
def isIdentifier (token : Token) : Bool :=
  match token.kind with
  | .word => !Keyword.isReserved token.text
  | .quotedName => true
  | _ => false

/-- Any word or quoted name. -/
def isName (token : Token) : Bool :=
  token.kind == .word || token.kind == .quotedName

/-- Characters without one closing quote at the end. -/
def dropClosingQuote (cs : List Char) : List Char :=
  if cs.getLast? = some '"' ∨ cs.getLast? = some '\x60' then cs.dropLast else cs

/-- The token's text, a quoted name without its quotes. -/
def name (token : Token) : String :=
  match token.kind, token.text.toList with
  | .quotedName, _ :: c :: cs => String.ofList (dropClosingQuote (c :: cs))
  | _, _ => token.text

/-- The name in upper case. -/
def upper (token : Token) : String := Text.upper token.name

end Token

/-- Names of the tokens that are no dots, joined by dots. -/
def joinNames (tokens : List Token) : String :=
  String.intercalate "." ((tokens.filter (·.kind != .dot)).map Token.name)

end QueryAssist
