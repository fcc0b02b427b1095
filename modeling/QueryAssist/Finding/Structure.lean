import QueryAssist.Finding.Basic
import QueryAssist.Query.Projection
import QueryAssist.Text.Mask
import QueryAssist.Text.Parens

/-!
# Findings that need no catalog

Each check is one pass and reports in the order of the text.
-/

namespace QueryAssist.Finding

/-! ## Literals and parentheses -/

/-- Offset of the quote that is still open at the end, when `opened` is open at
`offset` after the character `before`. A quote after a backslash does not count;
a doubled quote closes and opens. -/
def openQuote (opened : Option Nat) (before : Option Char)
    (offset : Nat) : Text → Option Nat
  | [] => opened
  | c :: cs =>
    let opened :=
      if c == '\'' && before != some '\\' then
        (if opened.isSome then none else some offset)
      else opened
    openQuote opened (some c) (offset + c.utf8Size) cs

/-- The string literal that never ends. -/
def unclosedStrings (text : Text) : List Finding :=
  match openQuote none none 0 text.maskComments with
  | some offset => [locate text offset 1 .unclosedString]
  | none => []

/-- Offsets of the closing parentheses that close nothing. -/
def unopenedParens (state : Text.Nesting) (offset : Nat) : Text → List Nat
  | [] => []
  | c :: cs =>
    let rest := unopenedParens (state.step c) (offset + c.utf8Size) cs
    if state.event c = .underflow then offset :: rest else rest

/-- Offsets of the parentheses that are open at the end, when those in `opened`
are open before, innermost first. -/
def unclosedParens (state : Text.Nesting) (offset : Nat)
    (opened : List Nat) : Text → List Nat
  | [] => opened.reverse
  | c :: cs =>
    let opened :=
      match state.event c with
      | .opened => offset :: opened
      | .closed => opened.tail
      | .underflow | .other => opened
    unclosedParens (state.step c) (offset + c.utf8Size) opened cs

/-- Parentheses without a partner: first those that close nothing, then those
that are never closed. -/
def unbalancedParens (text clean : Text) : List Finding :=
  (unopenedParens {} 0 clean).map (locate text · 1 .unopenedParen)
    ++ (unclosedParens {} 0 [] clean).map (locate text · 1 .unclosedParen)

/-! ## Commas and select lists -/

/-- What a comma may not stand before: a clause, a semicolon or a closing
parenthesis, in front of `tokens`. -/
def clauseInFront : List Token → Option String
  | [] => none
  | t :: rest =>
    if t.kind == .semicolon || t.kind == .rightParen then some t.text
    else if t.isOneOf Keyword.notAfterComma then some t.upper
    else if t.isOneOf ["GROUP", "ORDER"]
      && rest.head?.any (·.isKeyword "BY") then some (t.upper ++ " BY")
    else none

def unexpectedCommas (text : Text) : List Token → List Finding
  | [] => []
  | t :: rest =>
    let here :=
      if t.kind == .comma then
        match clauseInFront rest with
        | some clause =>
          [locate text t.start 1 (.commaBefore clause) (some .removeComma)]
        | none => []
      else []
    here ++ unexpectedCommas text rest

/-- Each token with the one after it. -/
def neighbours (tokens : List Token) : List (Token × Token) :=
  tokens.zip tokens.tail

def duplicateCommas (text : Text) (tokens : List Token) : List Finding :=
  ((neighbours tokens).filter fun (a, b) =>
    a.kind == .comma && b.kind == .comma).map fun (_, b) =>
    locate text b.start 1 .duplicateComma

def emptySelects (text : Text) (tokens : List Token) : List Finding :=
  ((neighbours tokens).filter fun (a, b) =>
    a.isKeyword "SELECT" && b.isOneOf ["FROM", "WHERE"]).map fun (a, _) =>
    locate text a.start (a.stop - a.start) .emptySelect

/-- Whether two tokens between `before` and `following` are identifiers that no
dot and no `AS` ties to anything. -/
def isBarePair (before first second : Token)
    (following : Option Token) : Bool :=
  first.isIdentifier && second.isIdentifier
    && !(before.kind == .dot || following.any (·.kind == .dot))
    && !before.isKeyword "AS"

/-- Bare pairs in the select list that goes on with `tokens` after the
token `before`. -/
def missingCommasIn (text : Text) (before : Token)
    (depth : Nat) : List Token → List Finding
  | [] => []
  | t :: rest =>
    match t.kind with
    | .leftParen => missingCommasIn text t (depth + 1) rest
    | .rightParen =>
      if depth = 0 then [] else missingCommasIn text t (depth - 1) rest
    | .semicolon => []
    | _ =>
      if depth = 0 ∧ t.isOneOf Keyword.afterProjection then []
      else
        let here :=
          match rest with
          | second :: more =>
            if depth = 0 ∧ isBarePair before t second more.head? then
              [locate text second.start (second.stop - second.start)
                (.missingComma t.text second.text)]
            else []
          | [] => []
        here ++ missingCommasIn text t depth rest

/-- Two identifiers side by side in a select list. An alias without `AS` looks
the same and is reported too. -/
def missingCommas (text : Text) : List Token → List Finding
  | [] => []
  | t :: rest =>
    (if t.isKeyword "SELECT" then missingCommasIn text t 0 rest else [])
      ++ missingCommas text rest

/-! ## References -/

/-- Whether nothing that could be a column stands right after a dot, when
`tokens` follow it. -/
def isDangling (dot : Token) : List Token → Bool
  | [] => true
  | next :: _ =>
    dot.stop < next.start || (next.kind == .word && Keyword.isClause next.text)

/-- A name and a dot with a blank, a clause or the end of the text after it. -/
def incompleteReferences (text : Text) : List Token → List Finding
  | [] => []
  | t :: rest =>
    let here :=
      match rest with
      | dot :: more =>
        if t.isName && dot.kind == .dot && dot.start == t.stop
          && isDangling dot more then
          [locate text t.start (dot.stop - t.start)
            (.incompleteReference t.text)]
        else []
      | [] => []
    here ++ incompleteReferences text rest

end QueryAssist.Finding
