import QueryAssist.Finding.Structure
import QueryAssist.Proofs.Text.Masking

/-!
# What the contents of comments and literals can change

A masked character keeps its bytes, and a line end stays a line end, so the
lines of a text can be read off its masked copy. Quotes are never masked inside
a literal, so whether a literal is left open can be read off the copy too, as
long as no backslash says otherwise.
-/

namespace QueryAssist

namespace Text

/-! ## Lines -/

theorem line_advance (place : Position) (text : Text) :
    (advance place text).line = place.line + text.count '\n' := by
  induction text generalizing place with
  | nil => rfl
  | cons c cs ih =>
    rw [advance]
    split
    · rename_i hc
      rw [ih, List.count_cons, if_pos hc]
      exact Nat.add_right_comm _ _ _
    · rename_i hc
      rw [ih, List.count_cons, if_neg hc]
      rfl

theorem startingBefore_zero (text : Text) : startingBefore text 0 = [] := by
  cases text with
  | nil => rfl
  | cons c cs => simp [startingBefore]

theorem startingBefore_append (a b : Text) (offset : Nat) :
    startingBefore (a ++ b) offset
      = startingBefore a offset ++ startingBefore b (offset - width a) := by
  induction a generalizing offset with
  | nil => rfl
  | cons c cs ih =>
    rw [List.cons_append, startingBefore, startingBefore, width_cons]
    split
    · rename_i hzero
      rw [hzero, Nat.zero_sub, startingBefore_zero, List.append_nil]
    · rw [ih, Nat.sub_sub, List.cons_append]

theorem startingBefore_sublist (text : Text) (offset : Nat) :
    (startingBefore text offset).Sublist text := by
  induction text generalizing offset with
  | nil => exact List.Sublist.refl _
  | cons c cs ih =>
    rw [startingBefore]
    split
    · exact List.nil_sublist _
    · exact (ih _).cons_cons c

/-- What stands for a character has its line ends. -/
theorem count_startingBefore_blankOut (c : Char) (offset : Nat) :
    (startingBefore (blankOut c) offset).count '\n'
      = (startingBefore [c] offset).count '\n' := by
  unfold blankOut
  split
  · rfl
  · rename_i hc
    simp only [Bool.or_eq_true, beq_iff_eq, not_or] at hc
    have hnone : ∀ {text : Text},
        '\n' ∉ text → (startingBefore text offset).count '\n' = 0 := by
      intro text htext
      exact List.count_eq_zero.2 fun hmem =>
        htext ((startingBefore_sublist text offset).subset hmem)
    rw [hnone, hnone]
    · simpa using Ne.symm hc.1
    · intro hmem
      exact absurd (List.eq_of_mem_replicate hmem) (by decide)

theorem count_startingBefore_maskFrom (masking : Masking) (mode : Mode)
    (text : Text) (offset : Nat) :
    (startingBefore (maskFrom masking mode text) offset).count '\n'
      = (startingBefore text offset).count '\n' := by
  induction text generalizing mode offset with
  | nil => rfl
  | cons c cs ih =>
    have hcons : startingBefore (c :: cs) offset
        = startingBefore [c] offset ++ startingBefore cs (offset - width [c]) :=
      startingBefore_append [c] cs offset
    rw [maskFrom, hcons, startingBefore_append, List.count_append,
      List.count_append, ih]
    split
    · rw [count_startingBefore_blankOut, width_blankOut, width_cons, width_nil,
        Nat.add_zero]
    · rfl

/-- A place in the masked text is on the line that it has in the text. -/
theorem line_position_sanitize (text : Text) (offset : Nat) :
    (position text.sanitize offset).line = (position text offset).line := by
  rw [position, line_advance, sanitize, count_startingBefore_maskFrom, position,
    line_advance]

/-! ## Open literals -/

theorem mem_maskFrom {masking : Masking} {mode : Mode} {text : Text} {b : Char}
    (h : b ∈ maskFrom masking mode text) : b ∈ text ∨ isBlank b = true := by
  induction text generalizing mode with
  | nil => cases h
  | cons c cs ih =>
    rw [maskFrom] at h
    rcases List.mem_append.1 h with h | h
    · split at h
      · exact Or.inr (blankOut_isBlank c b h)
      · exact Or.inl (by simp [List.mem_singleton.1 h])
    · rcases ih h with hin | hblank
      · exact Or.inl (List.mem_cons_of_mem c hin)
      · exact Or.inr hblank

end Text

namespace Finding

open Text

/-- Offset of the quote that is open after a text, when `opened` is open before
it and every quote counts. -/
def openAfter (opened : Option Nat) (offset : Nat) : Text → Option Nat
  | [] => opened
  | c :: cs =>
    openAfter (if c == '\'' then (if opened.isSome then none else some offset)
      else opened) (offset + c.utf8Size) cs

/-- Without backslashes every quote counts. -/
theorem openQuote_eq_openAfter {text : Text} (htext : '\\' ∉ text)
    (opened : Option Nat) {before : Option Char} (hbefore : before ≠ some '\\')
    (offset : Nat) :
    openQuote opened before offset text = openAfter opened offset text := by
  induction text generalizing opened before offset with
  | nil => rfl
  | cons c cs ih =>
    simp only [List.mem_cons, not_or] at htext
    have hc : some c ≠ some '\\' := fun h => htext.1 (Option.some.inj h).symm
    rw [openQuote, openAfter, ih htext.2 _ hc]
    simp [hbefore]

theorem openAfter_append (opened : Option Nat) (offset : Nat) (a b : Text) :
    openAfter opened offset (a ++ b)
      = openAfter (openAfter opened offset a) (offset + width a) b := by
  induction a generalizing opened offset with
  | nil => rfl
  | cons c cs ih =>
    rw [List.cons_append, openAfter, ih, openAfter, width_cons, Nat.add_assoc]

theorem openAfter_of_no_quote {text : Text} (h : '\'' ∉ text)
    (opened : Option Nat) (offset : Nat) :
    openAfter opened offset text = opened := by
  induction text generalizing offset with
  | nil => rfl
  | cons c cs ih =>
    simp only [List.mem_cons, not_or] at h
    have hc : (c == '\'') = false := by simpa using Ne.symm h.1
    simp only [openAfter, hc, Bool.false_eq_true, if_false, ih h.2]

/-- The quotes that count are the same however much is masked
besides comments. -/
theorem openAfter_maskFrom (masking masking' : Masking) (mode : Mode)
    (opened : Option Nat) (offset : Nat) (text : Text) :
    openAfter opened offset (maskFrom masking mode text)
      = openAfter opened offset (maskFrom masking' mode text) := by
  induction text generalizing mode opened offset with
  | nil => rfl
  | cons c cs ih =>
    have hpiece : ∀ masking : Masking,
        width (if masking.hides mode (mode.next c cs.head?) c then blankOut c
            else [c])
          = c.utf8Size := by
      intro masking
      split
      · exact width_blankOut c
      · simp
    rw [maskFrom, maskFrom, openAfter_append, openAfter_append, hpiece, hpiece,
      ih]
    by_cases hc : c = '\''
    -- a quote is hidden in comments only, and those are hidden by both
    · have hhides : masking.hides mode (mode.next c cs.head?) c
          = masking'.hides mode (mode.next c cs.head?) c := by
        simp [Masking.hides, hc]
      rw [hhides]
    · have hquiet : ∀ masking : Masking,
          '\'' ∉ (if masking.hides mode (mode.next c cs.head?) c then blankOut c
            else [c]) := by
        intro masking hmem
        split at hmem
        · exact absurd (blankOut_isBlank c _ hmem) (by decide)
        · exact hc (List.mem_singleton.1 hmem).symm
      rw [openAfter_of_no_quote (hquiet masking),
        openAfter_of_no_quote (hquiet masking')]

/-- Without backslashes an open literal shows in the masked text. -/
theorem openQuote_maskComments {text : Text} (h : '\\' ∉ text) :
    openQuote none none 0 text.maskComments
      = openAfter none 0 text.sanitize := by
  have hmasked : '\\' ∉ text.maskComments := by
    intro hmem
    rcases mem_maskFrom hmem with hin | hblank
    · exact h hin
    · exact absurd hblank (by decide)
  rw [openQuote_eq_openAfter hmasked none (by simp)]
  exact openAfter_maskFrom _ _ .code none 0 text

end Finding

end QueryAssist
