/-!
# Texts and byte offsets

A text is a list of characters; an offset into it counts the bytes of its UTF-8
form. An offset may lie past the end or inside a character: the functions here
cut a text at the last character boundary that is not after the offset.
-/

namespace QueryAssist

/-- A text, character by character. -/
abbrev Text := List Char

namespace Text

/-- Number of bytes of the UTF-8 form. -/
def width : Text → Nat
  | [] => 0
  | c :: cs => c.utf8Size + width cs

/-- The characters that lie wholly in the first `offset` bytes. -/
def upTo : Text → Nat → Text
  | [], _ => []
  | c :: cs, offset =>
    if c.utf8Size ≤ offset then c :: upTo cs (offset - c.utf8Size) else []

/-- The characters that do not lie wholly in the first `offset` bytes. -/
def after : Text → Nat → Text
  | [], _ => []
  | c :: cs, offset =>
    if c.utf8Size ≤ offset then after cs (offset - c.utf8Size) else c :: cs

/-- The last character boundary that is not after `offset`. -/
def floor (text : Text) (offset : Nat) : Nat := width (upTo text offset)

/-- Whether `offset` lies between two characters or at an end of the text. -/
def isBoundary (text : Text) (offset : Nat) : Bool :=
  floor text offset == offset

/-- The characters between two offsets. -/
def slice (text : Text) (start stop : Nat) : Text :=
  upTo (after text start) (stop - start)

/-! ## Laws -/

@[simp]
theorem width_nil : width [] = 0 := rfl

@[simp]
theorem width_cons (c : Char) (cs : Text) :
    width (c :: cs) = c.utf8Size + width cs := rfl

@[simp]
theorem width_append (a b : Text) : width (a ++ b) = width a + width b := by
  induction a with
  | nil => simp
  | cons c cs ih => simp [ih, Nat.add_assoc]

/-- A cut loses no character. -/
theorem upTo_append_after (text : Text) (offset : Nat) :
    upTo text offset ++ after text offset = text := by
  induction text generalizing offset with
  | nil => rfl
  | cons c cs ih =>
    by_cases h : c.utf8Size ≤ offset
    · simp [upTo, after, h, ih]
    · simp [upTo, after, h]

/-- A cut at the width of the first part of a text gives back that part. -/
theorem upTo_append_width (a b : Text) : upTo (a ++ b) (width a) = a := by
  induction a with
  | nil =>
    cases b with
    | nil => rfl
    | cons c cs => simp [upTo, Nat.not_le.mpr c.utf8Size_pos]
  | cons c cs ih => simp [upTo, ih]

theorem after_append_width (a b : Text) : after (a ++ b) (width a) = b := by
  induction a with
  | nil =>
    cases b with
    | nil => rfl
    | cons c cs => simp [after, Nat.not_le.mpr c.utf8Size_pos]
  | cons c cs ih => simp [after, ih]

theorem floor_le (text : Text) (offset : Nat) : floor text offset ≤ offset := by
  unfold floor
  induction text generalizing offset with
  | nil => simp [upTo]
  | cons c cs ih =>
    by_cases h : c.utf8Size ≤ offset
    · have := ih (offset - c.utf8Size)
      simp only [upTo, h, if_true, width_cons]
      omega
    · simp [upTo, h]

end Text

end QueryAssist
