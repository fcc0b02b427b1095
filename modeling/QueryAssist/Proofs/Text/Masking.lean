import QueryAssist.Proofs.Text.Range
import QueryAssist.Text.Blank
import QueryAssist.Text.Mask
import QueryAssist.Text.Word

/-!
# The masked text, character by character

What the scanner does on one character of code, and what the masked copy shows
of it. In code a character is kept unless it opens a comment; all that is
masked turns blank.
-/

namespace QueryAssist.Text

/-! ## Characters that leave the scanner in code -/

/-- Whether a character neither opens nor may open anything that the
scanner knows. -/
def isPlain (c : Char) : Bool :=
  !(c == '-' || c == '/' || c == '\'' || c == '"' || c == '\x60')

theorem isPlain_of_isDigit {c : Char}
    (h : c.isDigit = true) : isPlain c = true := by
  rcases hp : isPlain c with _ | _
  · simp only [isPlain, Bool.not_eq_false', Bool.or_eq_true, beq_iff_eq] at hp
    rcases hp with (((rfl | rfl) | rfl) | rfl) | rfl
      <;> exact absurd h (by decide)
  · rfl

theorem isPlain_of_isWordChar {c : Char}
    (h : isWordChar c = true) : isPlain c = true := by
  rcases hp : isPlain c with _ | _
  · simp only [isPlain, Bool.not_eq_false', Bool.or_eq_true, beq_iff_eq] at hp
    rcases hp with (((rfl | rfl) | rfl) | rfl) | rfl
      <;> exact absurd h (by decide +kernel)
  · rfl

theorem isPlain_of_isBlank {c : Char}
    (h : isBlank c = true) : isPlain c = true := by
  rcases hp : isPlain c with _ | _
  · simp only [isPlain, Bool.not_eq_false', Bool.or_eq_true, beq_iff_eq] at hp
    rcases hp with (((rfl | rfl) | rfl) | rfl) | rfl
      <;> exact absurd h (by decide)
  · rfl

/-- A class that misses every code point of the blank ranges misses
the blanks. -/
theorem eq_false_of_isBlank {p : Char → Bool}
    (h : ∀ r ∈ blankRanges,
      ∀ n ∈ List.range' r.1 (r.2 + 1 - r.1), p (Char.ofNat n) = false)
    {c : Char} (hc : isBlank c = true) : p c = false := by
  obtain ⟨r, hr, hlow, hhigh⟩ := inRanges_iff.1 hc
  have hmem : c.toNat ∈ List.range' r.1 (r.2 + 1 - r.1) :=
    List.mem_range'_1.2 ⟨hlow, by omega⟩
  have := h r hr c.toNat hmem
  rwa [Char.ofNat_toNat] at this

theorem isWordChar_of_isBlank {c : Char}
    (h : isBlank c = true) : isWordChar c = false :=
  eq_false_of_isBlank (by decide +kernel) h

theorem isDigit_of_isBlank {c : Char}
    (h : isBlank c = true) : c.isDigit = false :=
  eq_false_of_isBlank (by decide +kernel) h

/-- What the scanner does on a character in code: it enters a comment, a literal
or a quoted name, or stays. -/
theorem Mode.next_code_cases (c : Char) (following : Option Char) :
    (Mode.code.next c following).inComment = true ∨
      c = '\'' ∧ Mode.code.next c following = .string ∨
      (c = '"' ∨ c = '\x60') ∧ Mode.code.next c following = .quoted c ∨
      c ≠ '\'' ∧ c ≠ '"' ∧ c ≠ '\x60' ∧ Mode.code.next c following = .code := by
  simp only [Mode.next]
  split
  · exact Or.inl rfl
  · split
    · exact Or.inl rfl
    · split
      · rename_i h
        exact Or.inr (Or.inl ⟨by simpa using h, rfl⟩)
      · rename_i hs
        split
        · rename_i h
          exact Or.inr (Or.inr (Or.inl ⟨by simpa using h, rfl⟩))
        · rename_i hq
          simp only [Bool.or_eq_true, beq_iff_eq, not_or] at hs hq
          exact Or.inr (Or.inr (Or.inr ⟨hs, hq.1, hq.2, rfl⟩))

/-- A comment goes on or ends in code. -/
theorem Mode.next_of_inComment {mode : Mode} (h : mode.inComment = true)
    (c : Char) (following : Option Char) :
    (mode.next c following).inComment = true ∨
      mode.next c following = .code := by
  cases mode with
  | code => cases h
  | string => cases h
  | quoted => cases h
  | lineOpening => exact Or.inl rfl
  | blockOpening => exact Or.inl rfl
  | blockClosing => exact Or.inr rfl
  | lineComment =>
    rw [Mode.next]
    split
    · exact Or.inr rfl
    · exact Or.inl rfl
  | blockComment =>
    rw [Mode.next]
    split
    · exact Or.inl rfl
    · exact Or.inl rfl

theorem Mode.next_code_of_isPlain {c : Char} (h : isPlain c = true)
    (following : Option Char) : Mode.code.next c following = .code := by
  simp only [isPlain, Bool.not_eq_true', Bool.or_eq_false_iff] at h
  simp [Mode.next, h]

/-! ## The masked text -/

/-- The masked form of a text from a mode on, as all analyses see it. -/
abbrev cleanFrom (mode : Mode) (text : Text) : Text :=
  maskFrom .commentsAndStrings mode text

theorem cleanFrom_code_of_isPlain {c : Char} (h : isPlain c = true)
    (cs : Text) : cleanFrom .code (c :: cs) = c :: cleanFrom .code cs := by
  simp [cleanFrom, maskFrom, Mode.next_code_of_isPlain h, Masking.hides,
    Mode.inComment]

/-- Nothing is masked in a text without comments and quotes. -/
theorem sanitize_of_isPlain {text : Text}
    (h : ∀ c ∈ text, isPlain c = true) : text.sanitize = text := by
  induction text with
  | nil => rfl
  | cons c cs ih =>
    calc sanitize (c :: cs) = c :: sanitize cs :=
      cleanFrom_code_of_isPlain (h c (by simp)) cs
      _ = c :: cs := by rw [ih fun d hd => h d (by simp [hd])]

/-- In code a character is kept unless it opens a comment. -/
theorem cleanFrom_code_kept {c : Char} {cs : Text}
    (h : (Mode.code.next c cs.head?).inComment = false) :
    cleanFrom .code (c :: cs)
      = c :: cleanFrom (Mode.code.next c cs.head?) cs := by
  have hhides : Masking.commentsAndStrings.hides .code
        (Mode.code.next c cs.head?) c = false := by
    simp [Masking.hides, h]
    rfl
  simp [cleanFrom, maskFrom, hhides]

theorem cleanFrom_code_hidden {c : Char} {cs : Text}
    (h : (Mode.code.next c cs.head?).inComment = true) :
    cleanFrom .code (c :: cs)
      = blankOut c ++ cleanFrom (Mode.code.next c cs.head?) cs := by
  simp [cleanFrom, maskFrom, Masking.hides, h]

theorem cleanFrom_comment {mode : Mode} (h : mode.inComment = true) (c : Char)
    (cs : Text) :
    cleanFrom mode (c :: cs)
      = blankOut c ++ cleanFrom (mode.next c cs.head?) cs := by
  simp [cleanFrom, maskFrom, Masking.hides, h]

theorem blankOut_isBlank (c : Char) : ∀ b ∈ blankOut c, isBlank b = true := by
  intro b hb
  unfold blankOut at hb
  split at hb
  · rename_i hc
    simp only [List.mem_singleton] at hb
    subst hb
    simp only [Bool.or_eq_true, beq_iff_eq] at hc
    rcases hc with rfl | rfl <;> decide
  · rw [List.eq_of_mem_replicate hb]
    decide

/-- A blank of the masked text may be masked; any other character in code stands
in the text too. -/
theorem cons_of_cleanFrom_code {c : Char} {rest text : Text}
    (h : cleanFrom .code text = c :: rest) (hc : isBlank c = false) :
    ∃ cs, text = c :: cs ∧ rest = cleanFrom (Mode.code.next c cs.head?) cs := by
  cases text with
  | nil => simp [cleanFrom, maskFrom] at h
  | cons d cs =>
    rcases hm : (Mode.code.next d cs.head?).inComment with _ | _
    · rw [cleanFrom_code_kept hm] at h
      obtain ⟨rfl, rfl⟩ := List.cons.inj h
      exact ⟨cs, rfl, rfl⟩
    · rw [cleanFrom_code_hidden hm] at h
      rcases hb : blankOut d with _ | ⟨b, bs⟩
      · have := width_blankOut d
        rw [hb, width_nil] at this
        have := d.utf8Size_pos
        omega
      · rw [hb] at h
        obtain ⟨rfl, -⟩ := List.cons.inj h
        have := blankOut_isBlank d b (by rw [hb]; simp)
        rw [this] at hc
        cases hc

theorem cons_of_cleanFrom_code_of_isPlain {c : Char} {rest text : Text}
    (h : cleanFrom .code text = c :: rest) (hc : isBlank c = false)
    (hp : isPlain c = true) :
    ∃ cs, text = c :: cs ∧ rest = cleanFrom .code cs := by
  obtain ⟨cs, rfl, hrest⟩ := cons_of_cleanFrom_code h hc
  rw [Mode.next_code_of_isPlain hp] at hrest
  exact ⟨cs, rfl, hrest⟩

/-! ## Characters at an offset -/

/-- The character `c` stands at an offset. -/
def HasAt (text : Text) (offset : Nat) (c : Char) : Prop :=
  ∃ a b, text = a ++ c :: b ∧ width a = offset

theorem HasAt.isRange {text : Text} {offset : Nat} {c : Char}
    (h : HasAt text offset c) : IsRange text offset (offset + c.utf8Size) := by
  obtain ⟨a, b, rfl, rfl⟩ := h
  exact IsRange.of_parts (show [c] ≠ [] by simp)

/-- Only one character stands at an offset. -/
theorem HasAt.unique {text : Text} {offset : Nat} {c d : Char}
    (hc : HasAt text offset c) (hd : HasAt text offset d) : c = d := by
  obtain ⟨a, b, rfl, rfl⟩ := hc
  obtain ⟨a', b', heq, hwidth⟩ := hd
  obtain ⟨-, hrest⟩ := append_inj_of_width heq hwidth.symm
  exact (List.cons.inj hrest).1

/-- A character of the masked text that is not blank stands at the same offset
in the text. -/
theorem hasAt_of_maskFrom {masking : Masking} {mode : Mode} {text : Text}
    {offset : Nat} {c : Char} (h : HasAt (maskFrom masking mode text) offset c)
    (hc : isBlank c = false) : HasAt text offset c := by
  obtain ⟨a, b, hmask, rfl⟩ := h
  induction text generalizing mode a with
  | nil => simp [maskFrom] at hmask
  | cons d ds ih =>
    rw [maskFrom] at hmask
    generalize hpiece : (if masking.hides mode (mode.next d ds.head?) d then
          blankOut d
        else [d])
      = piece at hmask
    have hwidth : width piece = d.utf8Size := by
      rw [← hpiece]
      split
      · exact width_blankOut d
      · simp
    rcases List.append_eq_append_iff.1 hmask
      with ⟨m, ha, hrest⟩ | ⟨m, hp, hrest⟩
    · obtain ⟨a', b', hds, hwidth'⟩ := ih m hrest
      exact ⟨d :: a', b', by rw [hds, List.cons_append],
        by rw [ha, width_append, width_cons, hwidth, hwidth']⟩
    · cases m with
      | nil =>
        obtain ⟨a', b', hds, hwidth'⟩ := ih [] (by simpa using hrest.symm)
        refine ⟨d :: a', b', by rw [hds, List.cons_append], ?_⟩
        rw [width_cons, hwidth', width_nil, Nat.add_zero, ← hwidth, hp,
          List.append_nil]
      | cons e es =>
        -- the character stands in the piece of `d`, which is `d` itself since
        -- the others are blank
        obtain ⟨rfl, -⟩ := List.cons.inj hrest
        have hmem : c ∈ piece := by rw [hp]; simp
        split at hpiece
        · rw [← hpiece] at hmem
          rw [blankOut_isBlank d c hmem] at hc
          cases hc
        · rw [← hpiece] at hp
          have ha : a = [] := by
            cases a with
            | nil => rfl
            | cons x xs => simp at hp
          subst ha
          simp only [List.nil_append, List.cons.injEq] at hp
          exact ⟨[], ds, by rw [hp.1]; rfl, rfl⟩

/-! ## Boundaries -/

theorem upTo_replicate_space {n offset : Nat} (h : offset ≤ n) (rest : Text) :
    upTo (List.replicate n ' ' ++ rest) offset = List.replicate offset ' ' := by
  obtain ⟨more, rfl⟩ := Nat.exists_eq_add_of_le h
  have hcut :=
    upTo_append_width (List.replicate offset ' ')
      (List.replicate more ' ' ++ rest)
  rwa [width_replicate_space, ← List.append_assoc,
    List.replicate_append_replicate] at hcut

/-- An offset is cut down to the same boundary in a text and in its masked form,
unless it lies inside a masked character; then it is none of the text's
boundaries, and a blank stands before it. -/
theorem floor_maskFrom_cases (masking : Masking) (mode : Mode) (text : Text)
    (offset : Nat) :
    floor (maskFrom masking mode text) offset = floor text offset ∨
      isBoundary text (floor (maskFrom masking mode text) offset) = false ∧
        ∃ front, upTo (maskFrom masking mode text) offset = front ++ [' '] := by
  induction text generalizing mode offset with
  | nil => exact Or.inl rfl
  | cons c cs ih =>
    rw [maskFrom]
    generalize hpiece : (if masking.hides mode (mode.next c cs.head?) c then
          blankOut c
        else [c]) = piece
    have hwidth : width piece = c.utf8Size := by
      rw [← hpiece]
      split
      · exact width_blankOut c
      · simp
    by_cases hc : c.utf8Size ≤ offset
    -- The character lies before the offset, and so does what stands for it.
    · obtain ⟨more, rfl⟩ := Nat.exists_eq_add_of_le hc
      have hcut :=
        (upTo_append_add piece
          (maskFrom masking (mode.next c cs.head?) cs) more).1
      have htext : upTo (c :: cs) (c.utf8Size + more) = c :: upTo cs more := by
        simp [upTo]
      rw [hwidth] at hcut
      rcases ih (mode.next c cs.head?) more with heq | ⟨hinside, front, hfront⟩
      · left
        rw [floor, hcut, width_append, hwidth, floor, htext, width_cons]
        exact congrArg (c.utf8Size + ·) heq
      · right
        refine ⟨?_, piece ++ front, by rw [hcut, hfront, List.append_assoc]⟩
        have hstep : floor (piece ++ maskFrom masking (mode.next c cs.head?) cs)
              (c.utf8Size + more)
            = c.utf8Size
              + floor (maskFrom masking (mode.next c cs.head?) cs) more := by
          rw [floor, hcut, width_append, hwidth, floor]
        simp only [isBoundary, beq_eq_false_iff_ne, ne_eq] at hinside ⊢
        rw [hstep, floor, upTo, if_pos (Nat.le_add_right _ _),
          Nat.add_sub_cancel_left, width_cons]
        exact fun heq => hinside (Nat.add_left_cancel heq)
    -- The offset lies inside the character: it is kept, and cut off whole, or
    -- it is masked.
    · have htext : floor (c :: cs) offset = 0 := by simp [floor, upTo, hc]
      rw [htext]
      split at hpiece
      · unfold blankOut at hpiece
        split at hpiece
        · left
          simp [← hpiece, floor, upTo, hc]
        · have hcut :=
            upTo_replicate_space (Nat.le_of_not_le hc)
              (maskFrom masking (mode.next c cs.head?) cs)
          rw [floor, ← hpiece, hcut, width_replicate_space]
          cases offset with
          | zero => exact Or.inl rfl
          | succ n =>
            right
            exact ⟨by simp [isBoundary, htext], List.replicate n ' ',
              List.replicate_succ'⟩
      · left
        simp [← hpiece, floor, upTo, hc]

end QueryAssist.Text
