import QueryAssist.Proofs.Text.Masking

/-!
# Masked texts, byte by byte and masked again

A masked text lies over its text: it has the same bytes at the same places
except where it holds a space, and no line end and no boundary between
characters is lost. What is masked stays so. A scanner that is given a masked
text is in code where the first scanner was in a comment and else in the same
mode, so masking twice is masking once, with all that either of them hides.
-/

namespace QueryAssist.Text

/-! ## Bytes -/

/-- The UTF-8 form of a text. -/
def bytes (text : Text) : List UInt8 := text.flatMap String.utf8EncodeChar

theorem bytes_append (a b : Text) : bytes (a ++ b) = bytes a ++ bytes b :=
  List.flatMap_append

theorem length_bytes (text : Text) : text.bytes.length = width text := by
  induction text with
  | nil => rfl
  | cons c cs ih =>
    rw [bytes, List.flatMap_cons, List.length_append,
      String.length_utf8EncodeChar, width_cons]
    exact congrArg (c.utf8Size + ·) ih

theorem bytes_replicate_space (n : Nat) :
    bytes (List.replicate n ' ') = List.replicate n ' '.toUInt8 := by
  induction n with
  | zero => rfl
  | succ n ih =>
    rw [List.replicate_succ, List.replicate_succ, ← ih]
    rfl

/-- The byte of a newline stands for nothing but a newline: all bytes of a
longer form are above it. -/
theorem eq_newline_of_mem_utf8EncodeChar {c : Char}
    (h : '\n'.toUInt8 ∈ String.utf8EncodeChar c) : c = '\n' := by
  have hbyte : ∀ n, n < 256 → '\n'.toUInt8 = UInt8.ofNat n → n = 10 := by
    intro n hn heq
    have hnat := congrArg UInt8.toNat heq
    rw [UInt8.toNat_ofNat_of_lt' hn] at hnat
    exact hnat.symm
  unfold String.utf8EncodeChar at h
  simp only at h
  split at h
  · rename_i hsmall
    have hval := hbyte _ (by omega) (List.mem_singleton.1 h)
    exact Char.ext (UInt32.toNat_inj.1 hval)
  · split at h
    · simp only [List.mem_cons, List.not_mem_nil, or_false] at h
      rcases h with h | h <;> have := hbyte _ (by omega) h <;> omega
    · split at h
      · simp only [List.mem_cons, List.not_mem_nil, or_false] at h
        rcases h with h | h | h <;> have := hbyte _ (by omega) h <;> omega
      · simp only [List.mem_cons, List.not_mem_nil, or_false] at h
        rcases h with h | h | h | h <;> have := hbyte _ (by omega) h <;> omega

/-! ## A text over another -/

/-- The first text has the bytes of the second except for spaces, the same line
ends, and all boundaries of the second. -/
structure Overlays (masked text : Text) : Prop where
  length : masked.bytes.length = text.bytes.length
  agrees : ∀ i : Nat,
    masked.bytes[i]? = some ' '.toUInt8 ∨ masked.bytes[i]? = text.bytes[i]?
  newline_iff : ∀ i : Nat,
    masked.bytes[i]? = some '\n'.toUInt8 ↔ text.bytes[i]? = some '\n'.toUInt8
  boundary : ∀ i, text.isBoundary i = true → masked.isBoundary i = true

namespace Overlays

theorem refl (text : Text) : Overlays text text where
  length := rfl
  agrees _ := Or.inr rfl
  newline_iff _ := Iff.rfl
  boundary _ h := h

variable {a b c d : Text}

theorem width_eq (h : Overlays a b) : width a = width b := by
  rw [← length_bytes, ← length_bytes, h.length]

theorem append (h : Overlays a b)
    (h' : Overlays c d) : Overlays (a ++ c) (b ++ d) := by
  -- A byte of both wholes is one of both first parts, or one of both
  -- second parts.
  have hplace : ∀ i : Nat,
      ((a ++ c).bytes[i]? = a.bytes[i]? ∧ (b ++ d).bytes[i]? = b.bytes[i]?) ∨
        ∃ j : Nat, (a ++ c).bytes[i]? = c.bytes[j]? ∧
          (b ++ d).bytes[i]? = d.bytes[j]? := by
    intro i
    rw [bytes_append, bytes_append]
    by_cases hi : i < a.bytes.length
    · left
      exact ⟨List.getElem?_append_left hi,
        List.getElem?_append_left (h.length ▸ hi)⟩
    · right
      have hle := Nat.le_of_not_lt hi
      refine ⟨i - a.bytes.length, List.getElem?_append_right hle, ?_⟩
      rw [h.length]
      exact List.getElem?_append_right (h.length ▸ hle)
  constructor
  · rw [length_bytes, length_bytes, width_append, width_append, h.width_eq,
      h'.width_eq]
  · intro i
    rcases hplace i with ⟨hmasked, htext⟩ | ⟨j, hmasked, htext⟩
    · rw [hmasked, htext]
      exact h.agrees i
    · rw [hmasked, htext]
      exact h'.agrees j
  · intro i
    rcases hplace i with ⟨hmasked, htext⟩ | ⟨j, hmasked, htext⟩
    · rw [hmasked, htext]
      exact h.newline_iff i
    · rw [hmasked, htext]
      exact h'.newline_iff j
  · intro i hi
    obtain ⟨x, y, htext, rfl⟩ := isBoundary_iff.1 hi
    rcases List.append_eq_append_iff.1 htext with ⟨m, rfl, rfl⟩ | ⟨m, rfl, -⟩
    · obtain ⟨p, q, rfl, hp⟩ :=
        isBoundary_iff.1 (h'.boundary (width m) (isBoundary_width m y))
      refine isBoundary_iff.2 ⟨a ++ p, q, (List.append_assoc ..).symm, ?_⟩
      rw [width_append, width_append, hp, h.width_eq]
    · obtain ⟨p, q, rfl, hp⟩ :=
        isBoundary_iff.1 (h.boundary (width x) (isBoundary_width x m))
      exact isBoundary_iff.2 ⟨p, q ++ c, List.append_assoc .., hp⟩

end Overlays

/-- What stands for a masked character lies over it. -/
theorem overlays_blankOut (c : Char) : Overlays (blankOut c) [c] := by
  unfold blankOut
  split
  · exact .refl _
  · rename_i hline
    have hlength : (bytes (List.replicate c.utf8Size ' ')).length
        = (bytes [c]).length := by
      rw [length_bytes, length_bytes, width_replicate_space, width_cons,
        width_nil, Nat.add_zero]
    have hbyte : ∀ i, i < c.utf8Size →
        (bytes (List.replicate c.utf8Size ' '))[i]? = some ' '.toUInt8 := by
      intro i hi
      rw [bytes_replicate_space, List.getElem?_replicate, if_pos hi]
    constructor
    · exact hlength
    · intro i
      by_cases hi : i < c.utf8Size
      · exact Or.inl (hbyte i hi)
      · right
        have hend : (bytes (List.replicate c.utf8Size ' ')).length ≤ i := by
          rw [length_bytes, width_replicate_space]
          omega
        rw [List.getElem?_eq_none hend, List.getElem?_eq_none (hlength ▸ hend)]
    · intro i
      constructor
      · intro hnewline
        rw [bytes_replicate_space] at hnewline
        exact absurd (List.eq_of_mem_replicate (List.mem_of_getElem? hnewline))
          (by decide)
      · intro hnewline
        have hmem : '\n'.toUInt8 ∈ String.utf8EncodeChar c := by
          simpa [bytes] using List.mem_of_getElem? hnewline
        rw [eq_newline_of_mem_utf8EncodeChar hmem] at hline
        exact absurd rfl hline
    · intro i hi
      refine isBoundary_iff.2
        ⟨List.replicate i ' ', List.replicate (c.utf8Size - i) ' ', ?_,
          width_replicate_space i⟩
      have hle : i ≤ c.utf8Size := by simpa using isBoundary_le hi
      rw [List.replicate_append_replicate, Nat.add_sub_cancel' hle]

/-- A masked text lies over its text. -/
theorem overlays_maskFrom (masking : Masking) (mode : Mode) (text : Text) :
    Overlays (maskFrom masking mode text) text := by
  induction text generalizing mode with
  | nil => exact .refl _
  | cons c cs ih =>
    show Overlays _ ([c] ++ cs)
    rw [maskFrom]
    refine Overlays.append ?_ (ih _)
    split
    · exact overlays_blankOut c
    · exact .refl _

/-! ## The scanner on a masked text -/

namespace Mode

/-- The mode of a scanner on the masked text: comments are gone from it. -/
def settled (mode : Mode) : Mode := if mode.inComment then .code else mode

theorem settled_of_inComment {mode : Mode}
    (h : mode.inComment = true) : mode.settled = .code := if_pos h

theorem settled_of_not_inComment {mode : Mode}
    (h : mode.inComment = false) : mode.settled = mode := by
  rw [settled, h]
  rfl

theorem run_code_blanks {blanks : Text} (h : ∀ b ∈ blanks, isBlank b = true)
    (rest : Text) : code.run (blanks ++ rest) = code.run rest := by
  induction blanks with
  | nil => rfl
  | cons b bs ih =>
    rw [List.cons_append, run,
      next_code_of_isPlain (isPlain_of_isBlank (h b (by simp)))]
    exact ih fun d hd => h d (by simp [hd])

/-- A literal or a quoted name, which `mode` is, goes on over all that does
not close it. -/
theorem run_append_of_open {mode : Mode} {close : Char}
    (hnext : ∀ c following,
      mode.next c following = if c == close then .code else mode) {body : Text}
    (h : close ∉ body) (rest : Text) :
    mode.run (body ++ rest) = mode.run rest := by
  induction body with
  | nil => rfl
  | cons c cs ih =>
    simp only [List.mem_cons, not_or] at h
    have hc : ¬ (c == close) = true := by simpa using Ne.symm h.1
    rw [List.cons_append, run, hnext, if_neg hc, ih h.2]

theorem run_append_of_closed {mode : Mode} {close : Char}
    (hnext : ∀ c following,
      mode.next c following = if c == close then .code else mode) {body : Text}
    (h : close ∉ body) (rest : Text) :
    mode.run (body ++ [close] ++ rest) = code.run rest := by
  rw [List.append_assoc, run_append_of_open hnext h, List.singleton_append, run,
    hnext, if_pos (beq_self_eq_true close)]

/-- Unless a comment is opened, the character behind does not matter in code. -/
theorem next_code_of_kept {c : Char} {following : Option Char}
    (h : (code.next c following).inComment = false) :
    code.next c following = code.next c none := by
  have hdash : (c == '-' && following == some '-') = false := by
    rw [Bool.eq_false_iff]
    intro hopens
    rw [next, if_pos hopens] at h
    cases h
  have hslash : (c == '/' && following == some '*') = false := by
    rw [Bool.eq_false_iff]
    intro hopens
    rw [next, hdash, if_neg (by simp), if_pos hopens] at h
    cases h
  have hnone : ∀ d : Char, ((none : Option Char) == some d) = false :=
    fun _ => rfl
  simp only [next, hdash, hslash, hnone, Bool.and_false]

/-- A blank opens no comment with the character before it. -/
theorem next_code_of_blank_behind (c : Char) {b : Char} (h : isBlank b = true) :
    code.next c (some b) = code.next c none := by
  have hopens : ∀ d,
      isBlank d = false → (some b == some d) = (none == some d) := by
    intro d hd
    refine beq_eq_false_iff_ne.2 ?_
    rintro ⟨⟩
    rw [h] at hd
    cases hd
  simp only [next, hopens '-' (by decide), hopens '*' (by decide)]

end Mode

/-- A masked text starts as the text does, or with a blank. -/
theorem head?_maskFrom (masking : Masking) (mode : Mode) (text : Text) :
    (maskFrom masking mode text).head? = text.head? ∨
      ∃ b, (maskFrom masking mode text).head? = some b ∧ isBlank b = true := by
  cases text with
  | nil => exact Or.inl rfl
  | cons c cs =>
    rw [maskFrom]
    split
    · rcases hpiece : blankOut c with _ | ⟨b, bs⟩
      · have hwidth := width_blankOut c
        rw [hpiece, width_nil] at hwidth
        exact absurd hwidth.symm (Nat.ne_of_gt c.utf8Size_pos)
      · exact Or.inr ⟨b, rfl, blankOut_isBlank c b (by rw [hpiece]; simp)⟩
    · exact Or.inl rfl

/-- On a character that is kept the scanner does the same in the masked text. -/
theorem Mode.next_masked {masking : Masking} {mode : Mode} {c : Char}
    {cs : Text} (hmode : mode.inComment = false)
    (hnext : (mode.next c cs.head?).inComment = false) (rest : Mode) :
    mode.next c (maskFrom masking rest cs).head? = mode.next c cs.head? := by
  rcases head?_maskFrom masking rest cs with hsame | ⟨b, hblank, hb⟩
  · rw [hsame]
  · cases mode with
    | code =>
      rw [hblank, next_code_of_blank_behind c hb, next_code_of_kept hnext]
    | string | quoted => rfl
    | lineOpening | lineComment | blockOpening | blockComment | blockClosing =>
      cases hmode

/-! ## Masking again -/

/-- All that either of two maskings hides. -/
def Masking.union : Masking → Masking → Masking
  | .comments, .comments => .comments
  | _, _ => .commentsAndStrings

theorem maskFrom_code_blanks (masking : Masking) {blanks : Text}
    (h : ∀ b ∈ blanks, isBlank b = true) (rest : Text) :
    maskFrom masking .code (blanks ++ rest)
      = blanks ++ maskFrom masking .code rest := by
  induction blanks with
  | nil => rfl
  | cons b bs ih =>
    have hnext :=
      Mode.next_code_of_isPlain (isPlain_of_isBlank (h b (by simp)))
        (bs ++ rest).head?
    have hkept : masking.hides .code .code b = false := by cases masking <;> rfl
    rw [List.cons_append, maskFrom, hnext, hkept,
      ih fun d hd => h d (by simp [hd])]
    rfl

theorem blankOut_of_mem_blankOut {c b : Char} (h : b ∈ blankOut c) :
    blankOut b = [b] ∧ b ≠ '\'' := by
  unfold blankOut at h
  split at h
  · rename_i hline
    rw [List.mem_singleton.1 h]
    refine ⟨if_pos hline, ?_⟩
    rintro rfl
    cases hline
  · rw [List.eq_of_mem_replicate h]
    decide

/-- In a literal what is masked already stays. -/
theorem maskFrom_string_blankOut (masking : Masking) (c : Char) (rest : Text) :
    maskFrom masking .string (blankOut c ++ rest)
      = blankOut c ++ maskFrom masking .string rest := by
  have hpiece : ∀ blanks : Text, (∀ b ∈ blanks, b ∈ blankOut c) →
      maskFrom masking .string (blanks ++ rest)
        = blanks ++ maskFrom masking .string rest := by
    intro blanks hblanks
    induction blanks with
    | nil => rfl
    | cons b bs ih =>
      obtain ⟨hblank, hquote⟩ := blankOut_of_mem_blankOut (hblanks b (by simp))
      have hnext : Mode.string.next b (bs ++ rest).head? = .string := by
        simp [Mode.next, hquote]
      rw [List.cons_append, maskFrom, hnext,
        ih fun d hd => hblanks d (by simp [hd]), hblank]
      split <;> rfl
  exact hpiece _ fun _ hb => hb

/-- The ways a character is met: it belongs to a comment or opens one, it is
hidden in a literal, or it is kept. -/
theorem hides_cases (masking : Masking) (mode : Mode) (c : Char)
    (following : Option Char) :
    (mode.settled = .code ∧ (mode.next c following).settled = .code ∧
        ∀ other : Masking, other.hides mode (mode.next c following) c = true) ∨
      (mode = .string ∧ mode.next c following = .string ∧
        masking = .commentsAndStrings ∧ c ≠ '\'') ∨
      (mode.inComment = false ∧ (mode.next c following).inComment = false ∧
        masking.hides mode (mode.next c following) c = false) := by
  by_cases hmode : mode.inComment = true
  · left
    refine ⟨Mode.settled_of_inComment hmode, ?_,
      fun other => by simp [Masking.hides, hmode]⟩
    rcases Mode.next_of_inComment hmode c following with hnext | hnext
    · exact Mode.settled_of_inComment hnext
    · rw [hnext]
      rfl
  have hmode : mode.inComment = false := by simpa using hmode
  by_cases hnext : (mode.next c following).inComment = true
  · -- a comment is opened in code only
    left
    cases mode with
    | code =>
      exact ⟨rfl, Mode.settled_of_inComment hnext,
        fun other => by simp [Masking.hides, hnext]⟩
    | string | quoted =>
      rw [Mode.next] at hnext
      split at hnext <;> cases hnext
    | lineOpening | lineComment | blockOpening | blockComment | blockClosing =>
      cases hmode
  have hnext : (mode.next c following).inComment = false := by simpa using hnext
  by_cases hhides : masking.hides mode (mode.next c following) c = true
  · right; left
    simp only [Masking.hides, hmode, hnext, Bool.and_false, Bool.false_or,
      Bool.and_eq_true, beq_iff_eq, bne_iff_ne] at hhides
    obtain ⟨⟨rfl, rfl⟩, hquote⟩ := hhides
    exact ⟨rfl, by simp [Mode.next, hquote], rfl, hquote⟩
  · exact Or.inr (Or.inr ⟨hmode, hnext, by simpa using hhides⟩)

/-- Masking what is masked hides what either masking hides. -/
theorem maskFrom_maskFrom (again masking : Masking) (mode : Mode)
    (text : Text) :
    maskFrom again mode.settled (maskFrom masking mode text)
      = maskFrom (again.union masking) mode text := by
  induction text generalizing mode with
  | nil => rfl
  | cons c cs ih =>
    rcases hides_cases masking mode c cs.head?
      with ⟨hcode, hnext, hall⟩ | ⟨rfl, hnext, rfl, hquote⟩
        | ⟨hmode, hnext, hkept⟩
    -- In a comment: the second scanner reads blanks in code.
    · have hrest := ih (mode.next c cs.head?)
      rw [hnext] at hrest
      simp only [maskFrom, hall, if_true, hcode]
      rw [maskFrom_code_blanks again (blankOut_isBlank c), hrest]
    -- Masked in a literal: the second scanner is in the literal too.
    · have hrest := ih .string
      have hhides : ∀ other : Masking,
          (other.union .commentsAndStrings).hides .string .string c = true := by
        intro other
        cases other
          <;> simp [Masking.union, Masking.hides, Mode.inComment, hquote]
      have hhere : Masking.commentsAndStrings.hides .string .string c = true :=
        hhides .comments
      have hsettled : Mode.string.settled = .string := rfl
      rw [hsettled] at hrest ⊢
      simp only [maskFrom, hnext, hhere, hhides, if_true]
      rw [maskFrom_string_blankOut, hrest]
    -- Kept: both scanners read the same character in the same mode.
    · have hrest := ih (mode.next c cs.head?)
      have hfollow : mode.next c
            (maskFrom masking (mode.next c cs.head?) cs).head?
          = mode.next c cs.head? :=
        Mode.next_masked hmode hnext _
      have hsame : (again.union masking).hides mode (mode.next c cs.head?) c
          = again.hides mode (mode.next c cs.head?) c := by
        cases masking with
        | comments => cases again <;> rfl
        | commentsAndStrings =>
          -- no masking hides more than this one, which hides nothing here
          have hnone : again.hides mode (mode.next c cs.head?) c = false := by
            cases again with
            | comments => simp [Masking.hides, hmode, hnext]
            | commentsAndStrings => exact hkept
          rw [hnone, ← hkept]
          cases again <;> rfl
      rw [Mode.settled_of_not_inComment hnext] at hrest
      rw [Mode.settled_of_not_inComment hmode, maskFrom, hkept,
        if_neg (by simp), List.singleton_append]
      simp only [maskFrom, hfollow, hrest, hsame]

/-- The scanner ends the masked text in the mode in which it ends the text, if
not in a comment. -/
theorem run_maskFrom (masking : Masking) (mode : Mode) (text : Text) :
    mode.settled.run (maskFrom masking mode text)
      = (mode.run text).settled := by
  induction text generalizing mode with
  | nil => rfl
  | cons c cs ih =>
    rw [Mode.run]
    have hrest := ih (mode.next c cs.head?)
    rcases hides_cases masking mode c cs.head?
      with ⟨hcode, hnext, hall⟩ | ⟨rfl, hnext, rfl, hquote⟩
        | ⟨hmode, hnext, hkept⟩
    · rw [hnext] at hrest
      rw [maskFrom, hall, if_pos rfl, hcode,
        Mode.run_code_blanks (blankOut_isBlank c), hrest]
    · rw [hnext] at hrest ⊢
      have hhides : Masking.commentsAndStrings.hides .string .string c
          = true := by simp [Masking.hides, Mode.inComment, hquote]
      have hquiet : '\'' ∉ blankOut c :=
        fun hmem => (blankOut_of_mem_blankOut hmem).2 rfl
      rw [maskFrom, hnext, hhides, if_pos rfl, ← hrest]
      exact Mode.run_append_of_open (fun _ _ => rfl) hquiet _
    · rw [maskFrom, hkept, if_neg (by simp), List.singleton_append, Mode.run,
        Mode.settled_of_not_inComment hmode, Mode.next_masked hmode hnext,
        ← hrest, Mode.settled_of_not_inComment hnext]

/-- A masked text has the bytes of its text except for spaces, all its line ends
and all its boundaries; masking it again with the same or with the other masking
adds nothing but what that one hides. -/
theorem masking_overlays_and_settles (text : Text) :
    text.sanitize.Overlays text ∧ text.maskComments.Overlays text ∧
      text.sanitize.sanitize = text.sanitize ∧
      text.maskComments.maskComments = text.maskComments ∧
      text.maskComments.sanitize = text.sanitize ∧
      text.sanitize.maskComments = text.sanitize :=
  ⟨overlays_maskFrom _ _ text, overlays_maskFrom _ _ text,
    maskFrom_maskFrom _ _ .code text, maskFrom_maskFrom _ _ .code text,
    maskFrom_maskFrom _ _ .code text, maskFrom_maskFrom _ _ .code text⟩

end QueryAssist.Text
