import QueryAssist.Text.Position

/-!
# Ranges of whole characters

An offset is a boundary of a text iff it is the width of a first part of it. A
range between two boundaries cuts the text into three parts, and everything that
is asked of a range (its slice, its position, the span it is shown as) is read
off those parts.
-/

namespace QueryAssist

namespace Text

/-! ## Boundaries -/

theorem width_eq_zero {text : Text} : width text = 0 ↔ text = [] := by
  cases text with
  | nil => simp
  | cons c cs =>
    have hc := c.utf8Size_pos
    simp only [width_cons, reduceCtorEq, iff_false]
    omega

theorem width_reverse (text : Text) : width text.reverse = width text := by
  induction text with
  | nil => rfl
  | cons c cs ih =>
    rw [List.reverse_cons, width_append, ih, width_cons, width_cons, width_nil]
    omega

/-- A boundary is the width of a first part. -/
theorem isBoundary_iff {text : Text} {offset : Nat} :
    isBoundary text offset = true ↔
      ∃ a b, text = a ++ b ∧ width a = offset := by
  simp only [isBoundary, floor, beq_iff_eq]
  constructor
  · intro h
    exact ⟨upTo text offset, after text offset,
      (upTo_append_after text offset).symm, h⟩
  · rintro ⟨a, b, rfl, rfl⟩
    rw [upTo_append_width]

theorem isBoundary_width (a b : Text) : isBoundary (a ++ b) (width a) = true :=
  isBoundary_iff.2 ⟨a, b, rfl, rfl⟩

theorem isBoundary_le {text : Text} {offset : Nat}
    (h : isBoundary text offset = true) : offset ≤ width text := by
  obtain ⟨a, b, rfl, rfl⟩ := isBoundary_iff.1 h
  simp

/-- Of two first parts of a text the one that is not wider is a first part
of the other. -/
theorem append_eq_of_width_le {a b c d : Text} (h : a ++ b = c ++ d)
    (hle : width a ≤ width c) : ∃ m, c = a ++ m ∧ b = m ++ d := by
  rcases List.append_eq_append_iff.1 h with ⟨m, hc, hb⟩ | ⟨m, ha, hd⟩
  · exact ⟨m, hc, hb⟩
  · have hm : width m = 0 := by
      rw [ha, width_append] at hle
      omega
    rw [width_eq_zero.1 hm] at ha hd
    exact ⟨[], by simpa using ha.symm, by simpa using hd.symm⟩

/-- First parts of a text that are equally wide are the same. -/
theorem append_inj_of_width {a b c d : Text} (h : a ++ b = c ++ d)
    (hwidth : width a = width c) : a = c ∧ b = d := by
  obtain ⟨m, hc, hb⟩ := append_eq_of_width_le h (Nat.le_of_eq hwidth)
  have hm : m = [] := by
    rw [hc, width_append] at hwidth
    exact width_eq_zero.1 (by omega)
  rw [hm] at hc hb
  exact ⟨by simpa using hc.symm, hb⟩

/-! ## Cuts -/

/-- A cut in the first part of a text is one of that part. -/
theorem upTo_append_of_le {a : Text} {offset : Nat} (h : offset ≤ width a)
    (b : Text) :
    upTo (a ++ b) offset = upTo a offset ∧
      after (a ++ b) offset = after a offset ++ b := by
  induction a generalizing offset with
  | nil =>
    have hzero : offset = 0 := by simpa using h
    subst hzero
    cases b with
    | nil => simp [upTo, after]
    | cons c cs => simp [upTo, after, Nat.not_le.2 c.utf8Size_pos]
  | cons c cs ih =>
    rw [width_cons] at h
    by_cases hc : c.utf8Size ≤ offset
    · obtain ⟨hup, hafter⟩ := ih (show offset - c.utf8Size ≤ width cs by omega)
      simp [upTo, after, hc, hup, hafter]
    · simp [upTo, after, hc]

/-- A cut behind the first part of a text is one of the second part. -/
theorem upTo_append_add (a b : Text) (offset : Nat) :
    upTo (a ++ b) (width a + offset) = a ++ upTo b offset ∧
      after (a ++ b) (width a + offset) = after b offset := by
  induction a with
  | nil => simp
  | cons c cs ih =>
    have hle : c.utf8Size ≤ width (c :: cs) + offset := by
      rw [width_cons]
      omega
    have hsub : width (c :: cs) + offset - c.utf8Size = width cs + offset := by
      rw [width_cons]
      omega
    simp only [List.cons_append, upTo, after, hle, if_true, hsub, ih]
    simp

/-- A cut at an offset is one at the boundary below it. -/
theorem upTo_floor (text : Text) (offset : Nat) :
    text.upTo (text.floor offset) = text.upTo offset ∧
      text.after (text.floor offset) = text.after offset := by
  have hsplit := upTo_append_after text offset
  have hup := upTo_append_width (text.upTo offset) (text.after offset)
  have hafter := after_append_width (text.upTo offset) (text.after offset)
  rw [hsplit] at hup hafter
  exact ⟨hup, hafter⟩

/-- A boundary is at or before an offset iff it is at or before the boundary
below the offset. -/
theorem le_floor_iff {text : Text} {boundary : Nat}
    (h : isBoundary text boundary = true) (offset : Nat) :
    boundary ≤ text.floor offset ↔ boundary ≤ offset := by
  obtain ⟨a, b, rfl, rfl⟩ := isBoundary_iff.1 h
  constructor
  · intro hle
    exact Nat.le_trans hle (floor_le _ offset)
  · intro hle
    obtain ⟨more, rfl⟩ := Nat.exists_eq_add_of_le hle
    rw [floor, (upTo_append_add a b more).1, width_append]
    exact Nat.le_add_right _ _

/-! ## Ranges -/

/-- A range that is not empty and cuts no character. -/
structure IsRange (text : Text) (start stop : Nat) : Prop where
  lt : start < stop
  start_boundary : isBoundary text start = true
  stop_boundary : isBoundary text stop = true

namespace IsRange

variable {text : Text} {start stop : Nat}

theorem of_parts {a b c : Text} (hb : b ≠ []) :
    IsRange (a ++ (b ++ c)) (width a) (width a + width b) where
  lt := by
    have : width b ≠ 0 := fun h => hb (width_eq_zero.1 h)
    omega
  start_boundary := isBoundary_width a (b ++ c)
  stop_boundary := by
    rw [← List.append_assoc, ← width_append]
    exact isBoundary_width (a ++ b) c

/-- A range cuts its text into what stands before it, its own characters and
what follows. -/
theorem parts (h : IsRange text start stop) :
    ∃ a b c, text = a ++ (b ++ c) ∧ b ≠ [] ∧ width a = start ∧
      width a + width b = stop := by
  obtain ⟨a, rest, rfl, rfl⟩ := isBoundary_iff.1 h.start_boundary
  obtain ⟨ab, c, hab, hstop⟩ := isBoundary_iff.1 h.stop_boundary
  have hle : width a ≤ width ab := by have := h.lt; omega
  obtain ⟨b, rfl, rfl⟩ := append_eq_of_width_le hab hle
  rw [width_append] at hstop
  refine ⟨a, b, c, rfl, ?_, rfl, hstop⟩
  rintro rfl
  have := h.lt
  simp at hstop
  omega

theorem stop_le (h : IsRange text start stop) : stop ≤ width text :=
  isBoundary_le h.stop_boundary

/-- From the start of one range to the stop of a later one. -/
theorem join {start' stop' : Nat} (h : IsRange text start stop)
    (h' : IsRange text start' stop')
    (hle : stop ≤ stop') : IsRange text start stop' where
  lt := Nat.lt_of_lt_of_le h.lt hle
  start_boundary := h.start_boundary
  stop_boundary := h'.stop_boundary

end IsRange

/-- The slice between the widths of the first part and of the first two parts is
the second part. -/
theorem slice_parts (a b c : Text) :
    slice (a ++ (b ++ c)) (width a) (width a + width b) = b := by
  rw [slice, after_append_width, Nat.add_sub_cancel_left, upTo_append_width]

/-- The characters between two offsets, which have to be boundaries in this
order: a cut through a character fails. -/
def slice? (text : Text) (start stop : Nat) : Option Text :=
  if start ≤ stop && isBoundary text start && isBoundary text stop then
    some (slice text start stop)
  else none

theorem slice?_of_isRange {text : Text} {start stop : Nat}
    (h : IsRange text start stop) :
    slice? text start stop = some (slice text start stop) := by
  have hle : start ≤ stop := Nat.le_of_lt h.lt
  simp [slice?, hle, h.start_boundary, h.stop_boundary]

/-! ## Positions -/

/-- The characters that start before a boundary are those before it. -/
theorem startingBefore_append_width (a b : Text) :
    startingBefore (a ++ b) (width a) = a := by
  induction a with
  | nil => cases b <;> simp [startingBefore]
  | cons c cs ih =>
    have hc := c.utf8Size_pos
    have hne : ¬ width (c :: cs) = 0 := by
      rw [width_cons]
      omega
    rw [List.cons_append, startingBefore, if_neg hne, width_cons,
      Nat.add_sub_cancel_left, ih]

theorem position_append_width (a b : Text) :
    position (a ++ b) (width a) = advance ⟨1, 1⟩ a := by
  rw [position, startingBefore_append_width]

/-- A text leads to no earlier line, and on its own line to no
earlier column. -/
theorem advance_le (place : Position) (text : Text) :
    place.line < (advance place text).line ∨
      place.line = (advance place text).line ∧
        place.column ≤ (advance place text).column := by
  induction text generalizing place with
  | nil => exact Or.inr ⟨rfl, Nat.le_refl _⟩
  | cons c cs ih =>
    rw [advance]
    split
    · rcases ih ⟨place.line + 1, 1⟩ with h | ⟨h, -⟩
      · exact Or.inl (by simp only at h; omega)
      · exact Or.inl (by simp only at h; omega)
    · rcases ih ⟨place.line, place.column + 1⟩ with h | ⟨h, hcol⟩
      · exact Or.inl h
      · exact Or.inr ⟨h, by simp only at hcol; omega⟩

/-- A character leads on, so the place before it is not the place after a text
that starts with it. -/
theorem advance_cons_ne (place : Position) (c : Char) (cs : Text) :
    advance place (c :: cs) ≠ place := by
  intro h
  rw [advance] at h
  split at h
  · have := advance_le ⟨place.line + 1, 1⟩ cs
    rw [h] at this
    simp only at this
    omega
  · have := advance_le ⟨place.line, place.column + 1⟩ cs
    rw [h] at this
    simp only at this
    omega

/-- The offset of the place after a first part is the width of that part. -/
theorem offsetFrom_advance (place : Position) (offset : Nat) (a b : Text) :
    offsetFrom (advance place a) place offset (a ++ b) = offset + width a := by
  induction a generalizing place offset with
  | nil => cases b <;> simp [offsetFrom, advance]
  | cons c cs ih =>
    have hne : place ≠ advance place (c :: cs) :=
      (advance_cons_ne place c cs).symm
    rw [List.cons_append, offsetFrom, if_neg hne]
    by_cases hc : (c == '\n') = true
    · -- the target is on a later line, so the search passes the end of this one
      have hline : place.line ≠ (advance place (c :: cs)).line := by
        have := advance_le ⟨place.line + 1, 1⟩ cs
        rw [advance, if_pos hc]
        simp only at this
        omega
      rw [if_pos hc, if_neg hline, advance, if_pos hc, ih, width_cons,
        Nat.add_assoc]
    · rw [if_neg hc, advance, if_neg hc, ih, width_cons, Nat.add_assoc]

/-- A boundary is found again from its line and column. -/
theorem offsetOf_position {text : Text} {offset : Nat}
    (h : isBoundary text offset = true) :
    offsetOf text (position text offset) = offset := by
  obtain ⟨a, b, rfl, rfl⟩ := isBoundary_iff.1 h
  rw [position_append_width, offsetOf, offsetFrom_advance, Nat.zero_add]

end Text

/-! ## Spans -/

namespace Span

/-- What an editor relies on when it shows a span: the span is a range of whole
characters of the text, its line and column lead back to its offset, and it is
as many columns wide as it has characters. -/
structure Fits (span : Span) (text : Text) : Prop where
  length_pos : 1 ≤ span.length
  stop_le : span.offset + span.length ≤ text.width
  offset_boundary : text.isBoundary span.offset = true
  stop_boundary : text.isBoundary (span.offset + span.length) = true
  offsetOf_place : text.offsetOf ⟨span.line, span.column⟩ = span.offset
  columns : span.endColumn - span.column
    = (text.slice span.offset (span.offset + span.length)).length

theorem locate_offset (text : Text) (offset length : Nat) :
    (locate text offset length).offset = offset := rfl

theorem locate_length (text : Text) (offset length : Nat) :
    (locate text offset length).length = length := rfl

/-- Between two boundaries the highlighted characters are those of the slice. -/
theorem highlighted_of_range {text : Text} {start stop : Nat}
    (h : text.IsRange start stop) :
    highlighted text start stop = some (text.slice start stop).length := by
  have hle : start ≤ stop := Nat.le_of_lt h.lt
  simp [highlighted, hle, h.start_boundary, h.stop_boundary]

/-- The span of a range fits its text. -/
theorem locate_fits {text : Text} {start stop : Nat}
    (h : text.IsRange start stop) :
    (locate text start (stop - start)).Fits text := by
  have hlt := h.lt
  have hstop : start + (stop - start) = stop := by omega
  have hle := h.stop_le
  have hmin : min start text.width = start := by omega
  have hmin' : min stop text.width = stop := by omega
  constructor
  · rw [locate_length]
    omega
  · rw [locate_offset, locate_length, hstop]
    exact hle
  · exact h.start_boundary
  · rw [locate_offset, locate_length, hstop]
    exact h.stop_boundary
  · exact Text.offsetOf_position h.start_boundary
  · rw [locate_offset, locate_length, hstop]
    simp only [locate, hstop, hmin, hmin', highlighted_of_range h,
      Option.getD_some]
    omega

end Span

end QueryAssist
