import Mathlib.Order.Bounds.Defs
import QueryAssist.Proofs.Text.Range

/-!
# Lines of a text

A position is a line and a column, an offset counts bytes. From an offset to its
position and back is a step up to the next boundary, and no step where the
offset is one. From a position to its offset and back is a step left to the end
of the line, and no step where the line has that column.
-/

namespace QueryAssist.Text

/-- The lines of a text, without the newlines between them. A text that ends
with a newline has an empty last line. -/
def lines (text : Text) : List Text := text.splitOn '\n'

/-- A line by its number, counted from one. -/
def line (text : Text) (number : Nat) : Text :=
  (lines text).getD (number - 1) []

@[simp]
theorem lines_nil : lines [] = [[]] := List.splitOn_nil '\n'

theorem lines_newline (cs : Text) : lines ('\n' :: cs) = [] :: lines cs := by
  simp [lines, List.splitOn_cons_eq_if_modifyHead]

theorem lines_cons {c : Char} (h : (c == '\n') = false) (cs : Text) :
    lines (c :: cs) = (lines cs).modifyHead (c :: ·) := by
  simp [lines, List.splitOn_cons_eq_if_modifyHead, h]

theorem lines_length_pos (text : Text) : 0 < (lines text).length :=
  List.length_pos_iff.2 (List.splitOn_ne_nil '\n' text)

/-! ## From an offset to its position -/

/-- The characters that start before an offset come first in the text. -/
theorem startingBefore_prefix (text : Text) (offset : Nat) :
    startingBefore text offset <+: text := by
  induction text generalizing offset with
  | nil => exact List.nil_prefix
  | cons c cs ih =>
    rw [startingBefore]
    split
    · exact List.nil_prefix
    · exact List.cons_prefix_cons.2 ⟨rfl, ih _⟩

theorem le_width_startingBefore (text : Text) (offset : Nat) :
    min offset text.width ≤ width (startingBefore text offset) := by
  induction text generalizing offset with
  | nil => simp [startingBefore]
  | cons c cs ih =>
    by_cases h : offset = 0
    · simp [h]
    · have hrest := ih (offset - c.utf8Size)
      rw [startingBefore, if_neg h, width_cons, width_cons]
      omega

/-- A first part that reaches an offset holds all characters that
start before it. -/
theorem width_startingBefore_le (a b : Text) (offset : Nat)
    (h : min offset (width (a ++ b)) ≤ width a) :
    width (startingBefore (a ++ b) offset) ≤ width a := by
  induction a generalizing offset with
  | nil =>
    cases b with
    | nil => simp [startingBefore]
    | cons c cs =>
      have hc := c.utf8Size_pos
      simp only [List.nil_append, width_cons, width_nil] at h
      have hzero : offset = 0 := by omega
      simp [startingBefore, hzero]
  | cons c cs ih =>
    by_cases hzero : offset = 0
    · simp [startingBefore, hzero]
    · rw [List.cons_append, width_cons, width_cons] at h
      have hrest := ih (offset - c.utf8Size) (by omega)
      rw [List.cons_append, startingBefore, if_neg hzero, width_cons,
        width_cons]
      omega

/-- The offset of the position of an offset is the boundary right above. -/
theorem offsetOf_position_isLeast (text : Text) (offset : Nat) :
    IsLeast {boundary
      | text.isBoundary boundary = true ∧ min offset text.width ≤ boundary}
      (text.offsetOf (text.position offset)) := by
  obtain ⟨rest, htext⟩ := startingBefore_prefix text offset
  have hback : text.offsetOf (text.position offset)
      = width (startingBefore text offset) := by
    rw [position]
    generalize startingBefore text offset = a at htext
    rw [← htext, offsetOf, offsetFrom_advance, Nat.zero_add]
  rw [hback]
  constructor
  · exact ⟨isBoundary_iff.2 ⟨_, _, htext.symm, rfl⟩,
      le_width_startingBefore text offset⟩
  · rintro boundary ⟨hboundary, hle⟩
    obtain ⟨a, b, rfl, rfl⟩ := isBoundary_iff.1 hboundary
    exact width_startingBefore_le a b offset hle

/-! ## From a position to its offset -/

/-- The search for `target` through a text that starts at `place` stops where
the text has led to `found`. -/
def StopsAt (target place found : Position) (text : Text) : Prop :=
  ∃ a b, text = a ++ b ∧
    (∀ offset, offsetFrom target place offset text = offset + width a) ∧
    advance place a = found

namespace StopsAt

variable {target place found : Position} {c : Char} {cs text : Text}

/-- The offset that the search from the start of a text gives has the position
where the search stops. -/
theorem position_offsetOf (h : StopsAt target ⟨1, 1⟩ found text) :
    text.position (text.offsetOf target) = found := by
  obtain ⟨a, b, rfl, hoffset, hfound⟩ := h
  rw [offsetOf, hoffset, Nat.zero_add, position_append_width, hfound]

theorem of_end : StopsAt target place place [] :=
  ⟨[], [], rfl, fun _ => rfl, rfl⟩

theorem of_eq (h : place = target) : StopsAt target place place (c :: cs) :=
  ⟨[], c :: cs, rfl, fun offset => by rw [offsetFrom, if_pos h]; rfl, rfl⟩

/-- The search does not leave the line of its target. -/
theorem of_newline (h : place.line = target.line) :
    StopsAt target place place ('\n' :: cs) := by
  by_cases heq : place = target
  · exact of_eq heq
  · refine ⟨[], '\n' :: cs, rfl, ?_, rfl⟩
    intro offset
    rw [offsetFrom, if_neg heq, if_pos (beq_self_eq_true '\n'), if_pos h]
    rfl

theorem newline (hline : place.line < target.line)
    (h : StopsAt target ⟨place.line + 1, 1⟩ found cs) :
    StopsAt target place found ('\n' :: cs) := by
  obtain ⟨a, b, rfl, hoffset, hfound⟩ := h
  have hne : place ≠ target :=
    fun heq => Nat.ne_of_lt hline (congrArg Position.line heq)
  refine ⟨'\n' :: a, b, rfl, ?_, ?_⟩
  · intro offset
    rw [offsetFrom, if_neg hne, if_pos (beq_self_eq_true '\n'),
      if_neg (Nat.ne_of_lt hline), hoffset, width_cons, Nat.add_assoc]
  · rw [advance, if_pos (beq_self_eq_true '\n'), hfound]

theorem cons (hc : (c == '\n') = false) (hne : place ≠ target)
    (h : StopsAt target ⟨place.line, place.column + 1⟩ found cs) :
    StopsAt target place found (c :: cs) := by
  obtain ⟨a, b, rfl, hoffset, hfound⟩ := h
  have hc' : ¬ (c == '\n') = true := by simp [hc]
  refine ⟨c :: a, b, rfl, ?_, ?_⟩
  · intro offset
    rw [offsetFrom, if_neg hne, if_neg hc', hoffset, width_cons, Nat.add_assoc]
  · rw [advance, if_neg hc', hfound]

end StopsAt

/-- On its own line the search stops at the column, or else at the end
of the line. -/
theorem stopsAt_on_line {number start column : Nat} {content text : Text}
    (hline : (lines text)[0]? = some content) (hle : start ≤ column) :
    StopsAt ⟨number, column⟩ ⟨number, start⟩
      ⟨number, min column (start + content.length)⟩ text := by
  induction text generalizing start content with
  | nil =>
    have hcontent : content = [] := by simpa using hline.symm
    rw [hcontent, List.length_nil, Nat.add_zero, Nat.min_eq_right hle]
    exact .of_end
  | cons c cs ih =>
    by_cases hc : (c == '\n') = true
    · obtain rfl := beq_iff_eq.1 hc
      have hcontent : content = [] := by simpa [lines_newline] using hline.symm
      rw [hcontent, List.length_nil, Nat.add_zero, Nat.min_eq_right hle]
      exact .of_newline rfl
    · rw [Bool.not_eq_true] at hc
      rw [lines_cons hc, List.getElem?_modifyHead, if_pos rfl] at hline
      obtain ⟨rest, hrest, rfl⟩ := Option.map_eq_some_iff.1 hline
      by_cases hreached : start = column
      · rw [hreached, Nat.min_eq_left (Nat.le_add_right _ _)]
        exact .of_eq rfl
      · have hnext := ih hrest (show start + 1 ≤ column by omega)
        rw [show start + 1 + rest.length
          = start + (c :: rest).length by rw [List.length_cons]; omega] at hnext
        exact .cons hc
          (fun heq => hreached (congrArg Position.column heq)) hnext

/-- On a line below, the search stops at the column or at the end
of that line. -/
theorem stopsAt_below {place : Position} {number column : Nat}
    {content text : Text} (hline : (lines text)[number + 1]? = some content)
    (hcolumn : 1 ≤ column) :
    StopsAt ⟨place.line + number + 1, column⟩ place
      ⟨place.line + number + 1, min column (1 + content.length)⟩ text := by
  induction text generalizing place number with
  | nil => simp at hline
  | cons c cs ih =>
    by_cases hc : (c == '\n') = true
    · obtain rfl := beq_iff_eq.1 hc
      rw [lines_newline, List.getElem?_cons_succ] at hline
      refine .newline (by simp only; omega) ?_
      cases number with
      | zero => exact stopsAt_on_line hline hcolumn
      | succ number =>
        rw [show place.line + (number + 1) + 1
          = (⟨place.line + 1, 1⟩ : Position).line + number
            + 1 by simp only; omega]
        exact ih hline
    · rw [Bool.not_eq_true] at hc
      rw [lines_cons hc, List.getElem?_modifyHead,
        if_neg (Nat.succ_ne_zero number)] at hline
      have hnext : StopsAt _ ⟨place.line, place.column + 1⟩ _ cs := ih hline
      refine .cons hc ?_ hnext
      intro heq
      have := congrArg Position.line heq
      simp only at this
      omega

/-- A position on a line of the text is found again, with its column cut off at
the end of the line. -/
theorem position_offsetOf {text : Text} {number column : Nat}
    (hpos : 1 ≤ number) (hle : number ≤ (lines text).length)
    (hcolumn : 1 ≤ column) :
    text.position (text.offsetOf ⟨number, column⟩)
      = ⟨number, min column ((text.line number).length + 1)⟩ := by
  obtain ⟨above, rfl⟩ : ∃ above, number = above + 1 := ⟨number - 1, by omega⟩
  have hline : (lines text)[above]? = some (text.line (above + 1)) := by
    rw [line, Nat.add_sub_cancel, List.getD_eq_getElem?_getD,
      List.getElem?_eq_getElem (by omega), Option.getD_some]
  rw [Nat.add_comm (text.line (above + 1)).length]
  cases above with
  | zero => exact (stopsAt_on_line hline hcolumn).position_offsetOf
  | succ above =>
    have hfound : StopsAt _ ⟨1, 1⟩ _ text := stopsAt_below hline hcolumn
    rw [show 1 + above + 1 = above + 1 + 1 by omega] at hfound
    exact hfound.position_offsetOf

/-- The search for a position past the last line runs to the end of the text. -/
theorem offsetFrom_past_lines {target place : Position} {text : Text}
    (h : place.line + (lines text).length ≤ target.line) (offset : Nat) :
    offsetFrom target place offset text = offset + width text := by
  induction text generalizing place offset with
  | nil => rfl
  | cons c cs ih =>
    have hbelow : place.line < target.line := by
      have := lines_length_pos (c :: cs)
      omega
    have hne : place ≠ target :=
      fun heq => Nat.ne_of_lt hbelow (congrArg Position.line heq)
    rw [offsetFrom, if_neg hne]
    by_cases hc : (c == '\n') = true
    · obtain rfl := beq_iff_eq.1 hc
      rw [lines_newline, List.length_cons] at h
      have hrest : (⟨place.line + 1, 1⟩ : Position).line + (lines cs).length
          ≤ target.line := by simp only; omega
      rw [if_pos hc, if_neg (Nat.ne_of_lt hbelow), ih hrest, width_cons,
        Nat.add_assoc]
    · rw [lines_cons (by simpa using hc), List.length_modifyHead] at h
      have hrest : (⟨place.line, place.column + 1⟩ : Position).line
            + (lines cs).length
          ≤ target.line := h
      rw [if_neg hc, ih hrest, width_cons, Nat.add_assoc]

/-- Offsets and positions convert back and forth. The offset of the position of
an offset is the first boundary at or above it, within the text. The position of
the offset of a position is that position, with its column cut off behind the
last character of its line; a position past the last line has the offset of the
end of the text. -/
theorem offsets_and_positions_convert (text : Text) :
    (∀ offset,
        IsLeast {boundary
          | text.isBoundary boundary = true ∧ min offset text.width ≤ boundary}
          (text.offsetOf (text.position offset))) ∧
      (∀ number column, 1 ≤ number → number ≤ (lines text).length → 1 ≤ column →
        text.position (text.offsetOf ⟨number, column⟩)
          = ⟨number, min column ((text.line number).length + 1)⟩) ∧
      ∀ number column, (lines text).length < number →
        text.offsetOf ⟨number, column⟩ = text.width := by
  refine ⟨offsetOf_position_isLeast text,
    fun number column => position_offsetOf, ?_⟩
  intro number column hpast
  have hbelow : 1 + (lines text).length ≤ number := by omega
  rw [offsetOf, offsetFrom_past_lines hbelow, Nat.zero_add]

/-- A text with characters of one to four bytes, an empty line and a newline
at its end. -/
def unevenLines : Text := "é€\n\nab𝄞\n".toList

theorem offsets_and_positions_convert_unevenLines :
    lines unevenLines = ["é€".toList, [], "ab𝄞".toList, []] ∧
      -- an offset inside the second character, and one past the end
      IsLeast {boundary
          | unevenLines.isBoundary boundary = true ∧
            min 3 unevenLines.width ≤ boundary} 5 ∧
      IsLeast {boundary
          | unevenLines.isBoundary boundary = true ∧
            min 40 unevenLines.width ≤ boundary} 14 ∧
      -- a column past the end of the third line, one on the empty last line,
      -- and a line past the last
      unevenLines.position (unevenLines.offsetOf ⟨3, 9⟩) = ⟨3, 4⟩ ∧
      unevenLines.position (unevenLines.offsetOf ⟨4, 2⟩) = ⟨4, 1⟩ ∧
      unevenLines.offsetOf ⟨5, 1⟩ = unevenLines.width := by
  obtain ⟨hoffsets, hpositions, hpast⟩ :=
    offsets_and_positions_convert unevenLines
  have hlines : lines unevenLines = ["é€".toList, [], "ab𝄞".toList, []] := by
    decide
  have hcount : (lines unevenLines).length = 4 := by rw [hlines]; rfl
  refine ⟨hlines, ?_, ?_, ?_, ?_, hpast 5 1 (by omega)⟩
  · exact (show unevenLines.offsetOf (unevenLines.position 3) = 5 by decide)
      ▸ hoffsets 3
  · exact (show unevenLines.offsetOf (unevenLines.position 40) = 14 by decide)
      ▸ hoffsets 40
  · rw [hpositions 3 9 (by omega) (by omega) (by omega), line, hlines]
    decide
  · rw [hpositions 4 2 (by omega) (by omega) (by omega), line, hlines]
    decide

end QueryAssist.Text
