import QueryAssist.Text.Offset

/-!
# Parentheses outside string literals

A forward scan that knows parentheses and single-quoted literals, and
nothing else.
-/

namespace QueryAssist.Text

/-- State of the scan: the number of open parentheses, and whether a
literal is open. -/
structure Nesting where
  depth : Nat := 0
  inString : Bool := false
  deriving DecidableEq, Repr

/-- What one character did. -/
inductive ParenEvent where
  | opened
  | closed
  /-- A closing parenthesis with none open; the depth stays zero. -/
  | underflow
  | other
  deriving DecidableEq, Repr

namespace Nesting

/-- What `c` does in a state. -/
def event (state : Nesting) (c : Char) : ParenEvent :=
  if state.inString then .other
  else if c == '(' then .opened
  else if c == ')' then (if state.depth = 0 then .underflow else .closed)
  else .other

/-- The state after `c`. -/
def step (state : Nesting) (c : Char) : Nesting :=
  if c == '\'' then { state with inString := !state.inString }
  else
    match state.event c with
    | .opened => { state with depth := state.depth + 1 }
    | .closed => { state with depth := state.depth - 1 }
    | .underflow | .other => state

/-- The states after each character, with what each character did. -/
def trail (state : Nesting) : Text → List (Nesting × ParenEvent)
  | [] => []
  | c :: cs => (state.step c, state.event c) :: trail (state.step c) cs

end Nesting

/-- Offset of the first character that closes the nesting down to depth zero. -/
def closingFrom (state : Nesting) (offset : Nat) : Text → Option Nat
  | [] => none
  | c :: cs =>
    let next := state.step c
    if state.event c = .closed ∧ next.depth = 0 then some offset
    else closingFrom next (offset + c.utf8Size) cs

/-- Offset of the parenthesis that closes the one at `start`, if the
text has it. -/
def matchingParen (text : Text) (start : Nat) : Option Nat :=
  closingFrom {} start (text.after start)

end QueryAssist.Text
