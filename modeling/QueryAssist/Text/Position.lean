import QueryAssist.Text.Offset

/-!
# Lines and columns

Positions are counted from one, lines by newlines and columns by characters.
-/

namespace QueryAssist

/-- A place in a text as an editor shows it. -/
structure Position where
  line : Nat
  column : Nat
  deriving DecidableEq, Repr

namespace Text

/-- Position after a text that starts at `place`. -/
def advance (place : Position) : Text → Position
  | [] => place
  | c :: cs =>
    if c == '\n' then advance ⟨place.line + 1, 1⟩ cs
    else advance ⟨place.line, place.column + 1⟩ cs

/-- The characters that start before `offset`. -/
def startingBefore : Text → Nat → Text
  | [], _ => []
  | c :: cs, offset =>
    if offset = 0 then [] else c :: startingBefore cs (offset - c.utf8Size)

/-- Position of a byte offset. An offset inside a character counts that
character as passed. -/
def position (text : Text) (offset : Nat) : Position :=
  advance ⟨1, 1⟩ (startingBefore text offset)

/-- Byte offset of `target` in the text that follows, which starts at `place`
and `offset`. -/
def offsetFrom (target : Position) (place : Position)
    (offset : Nat) : Text → Nat
  | [] => offset
  | c :: cs =>
    if place = target then offset
    else if c == '\n' then
      if place.line = target.line then offset
      else offsetFrom target ⟨place.line + 1, 1⟩ (offset + c.utf8Size) cs
    else
      offsetFrom target ⟨place.line, place.column + 1⟩ (offset + c.utf8Size) cs

/-- Byte offset of a position. A column past the end of its line gives the end
of the line, a line past the last the end of the text. -/
def offsetOf (text : Text) (target : Position) : Nat :=
  offsetFrom target ⟨1, 1⟩ 0 text

end Text

/-- The part of a text that a finding or a hover points at. -/
structure Span where
  offset : Nat
  length : Nat
  line : Nat
  column : Nat
  endLine : Nat
  endColumn : Nat
  deriving DecidableEq, Repr

namespace Span

/-- Number of characters between two offsets, or none when either is not a
boundary of the text. -/
def highlighted (text : Text) (start stop : Nat) : Option Nat :=
  if start ≤ stop && text.isBoundary start && text.isBoundary stop then
    some (text.slice start stop).length
  else none

/-- The span of `length` bytes at `offset`. It ends on the line where it
starts, as many columns later as it has characters; a range that cuts a
character counts its bytes. -/
def locate (text : Text) (offset length : Nat) : Span :=
  let place := text.position offset
  let start := min offset text.width
  let stop := min (offset + length) text.width
  { offset, length
    line := place.line
    column := place.column
    endLine := place.line
    endColumn := place.column + (highlighted text start stop).getD length }

end Span

end QueryAssist
