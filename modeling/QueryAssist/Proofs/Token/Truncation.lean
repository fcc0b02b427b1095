import QueryAssist.Proofs.Token.Division
import QueryAssist.Proofs.Token.Lexing

/-!
# Tokens of a text that is cut off

How far a token goes is told by characters behind it: a number looks two
characters ahead, a parameter one. A token that ends before a cut is
nevertheless read the same without what stands behind the cut, since whatever it
looked for there would have made it longer. Only a token across the cut is read
differently, and a word across it is still a word.
-/

namespace QueryAssist

open Text

/-! ## Runs that end before the cut -/

section

variable {a b : Text}

theorem takeWhile_append_of_length_le {p : Char → Bool}
    (h : ((a ++ b).takeWhile p).length ≤ a.length) :
    (a ++ b).takeWhile p = a.takeWhile p := by
  induction a with
  | nil => exact List.eq_nil_of_length_eq_zero (Nat.le_zero.1 h)
  | cons c cs ih =>
    rw [List.cons_append, List.takeWhile_cons] at h ⊢
    rw [List.takeWhile_cons]
    split at h
    · rename_i hc
      rw [if_pos hc, if_pos hc, ih (Nat.le_of_succ_le_succ h)]
    · rename_i hc
      rw [if_neg hc, if_neg hc]

theorem wordRun_append_of_le (h : wordRun (a ++ b) ≤ a.length) :
    wordRun a = wordRun (a ++ b) := by
  rw [wordRun, wordRun, takeWhile_append_of_length_le h]

theorem digitRun_append_of_le (h : digitRun (a ++ b) ≤ a.length) :
    digitRun a = digitRun (a ++ b) := by
  rw [digitRun, digitRun, takeWhile_append_of_length_le h]

theorem closedLength_append_of_le {close : Char}
    (h : closedLength close (a ++ b) ≤ a.length) :
    closedLength close a = closedLength close (a ++ b) := by
  by_cases hclosed : close ∈ a
  · exact (closedLength_append_of_mem hclosed b).symm
  -- A literal that is still open at the cut would take what is behind it, so
  -- nothing is.
  · have hopen : ∀ c ∈ a, c ≠ close := fun c hc heq => hclosed (heq ▸ hc)
    have hlength := closedLength_append hopen b
    have hnone : b = [] := by
      cases b with
      | nil => rfl
      | cons c cs =>
        have hpos : 0 < closedLength close (c :: cs) := by
          rw [closedLength]
          split <;> omega
        omega
    rw [hnone, List.append_nil]

/-- A point at the cut belongs to no number that ends before it. -/
theorem numberRun_append_of_le (h : numberRun (a ++ b) ≤ a.length) :
    numberRun a = numberRun (a ++ b) := by
  have hdigits : digitRun (a ++ b) ≤ numberRun (a ++ b) := by
    rcases numberRun_cases (a ++ b) with hrun | ⟨d, rest, -, -, hrun⟩ <;> omega
  have hwhole := digitRun_append_of_le (Nat.le_trans hdigits h)
  have hle := digitRun_le a
  have hlength : (a.drop (digitRun a)).length = a.length - digitRun a :=
    List.length_drop
  simp only [numberRun, ← hwhole, List.drop_append_of_le_length hle] at h ⊢
  -- What stands behind the digits before the cut: nothing, one character, or
  -- two that decide.
  rcases hbehind : a.drop (digitRun a) with _ | ⟨c, _ | ⟨d, rest⟩⟩
  · rw [hbehind] at h hlength
    rw [List.nil_append] at h ⊢
    split at h
    · split at h
      · simp only [List.length_nil] at hlength
        omega
      · simp_all
    · rfl
  · rw [hbehind] at h hlength
    rw [List.singleton_append] at h ⊢
    split at h
    · split at h
      · simp only [List.length_singleton] at hlength
        omega
      · simp_all
    · simp_all
  · rw [hbehind] at h hlength
    by_cases hpoint : c = '.' ∧ d.isDigit = true
    · obtain ⟨rfl, hd⟩ := hpoint
      simp only [List.cons_append, hd, if_true] at h ⊢
      simp only [List.length_cons] at hlength
      have hfraction : digitRun (rest ++ b) ≤ rest.length := by omega
      rw [digitRun_append_of_le hfraction]
    · by_cases hc : c = '.'
      · have hd : ¬ d.isDigit = true := fun hd => hpoint ⟨hc, hd⟩
        simp [hc, hd]
      · simp [hc]

end

/-! ## Tokens that end before the cut -/

theorem wordRun_pos {text : Text}
    (h : text.head?.any isWordChar = true) : 0 < wordRun text := by
  cases text with
  | nil => cases h
  | cons c cs =>
    have hc : isWordChar c = true := h
    simp [wordRun, hc]

/-- A token that ends before a cut is the same without what stands
behind the cut. -/
theorem munch_append_of_le {c : Char} {a b : Text}
    (h : (munch c (a ++ b)).2 ≤ a.length) : munch c a = munch c (a ++ b) := by
  -- Where something before the cut follows `c`, it is seen with and without the
  -- rest; else what follows would be taken.
  have hname : ((c == ':' || c == '@' || c == '$') && a.head?.any isWordChar)
      = ((c == ':' || c == '@' || c == '$')
        && (a ++ b).head?.any isWordChar) := by
    cases a with
    | cons d ds => rfl
    | nil =>
      cases hsign : (c == ':' || c == '@' || c == '$') with
      | false => rfl
      | true =>
        cases hb : b.head?.any isWordChar with
        | false => simpa using hb
        | true =>
          have hpos := wordRun_pos hb
          simp only [Bool.or_eq_true, beq_iff_eq, or_assoc] at hsign
          rcases hsign with rfl | rfl | rfl <;> simp [munch, hb] at h <;> omega
  have hcolon : (c == ':' && a.head? == some ':')
      = (c == ':' && (a ++ b).head? == some ':') := by
    cases a with
    | cons d ds => rfl
    | nil =>
      by_cases hc : c = ':' ∧ b.head? = some ':'
      · obtain ⟨rfl, hb⟩ := hc
        have hnone : isWordChar ':' = false := by decide +kernel
        simp [munch, hb, hnone] at h
      · simpa using hc
  revert h
  fun_cases munch c (a ++ b)
  all_goals intro h
  all_goals rw [munch, hname, hcolon]
  all_goals simp only [*, Bool.false_eq_true, if_true, if_false]
  case case8 => rw [closedLength_append_of_le h]
  case case9 => rw [closedLength_append_of_le h]
  case case10 => rw [wordRun_append_of_le h]
  case case12 => rw [numberRun_append_of_le h]
  case case13 => rw [wordRun_append_of_le h]

/-- A word is made of word characters. -/
theorem munch_of_word {c : Char} {rest : Text} (h : (munch c rest).1 = .word) :
    isWordChar c = true ∧
      ∀ d ∈ rest.take (munch c rest).2, isWordChar d = true := by
  revert h
  fun_cases munch c rest
  all_goals intro h
  case case13 hc =>
    refine ⟨?_, ?_⟩
    · rcases Bool.or_eq_true_iff.1 hc with hc | hc <;> simp [isWordChar, hc]
    · rw [take_wordRun]
      exact List.all_eq_true.1 List.all_takeWhile
  all_goals cases h

/-- If only a word may go beyond the cut behind `cs ++ word`, a token with a
character before `word` that no word has ends before the cut. -/
theorem munch_le_of_cut {c : Char} {cs word behind : Text}
    (hlast : ∀ d ∈ (c :: cs).getLast?, isWordChar d = false)
    (hcut : width (cs ++ word)
        < width
          ((cs ++ (word ++ behind)).take (munch c (cs ++ (word ++ behind))).2) →
      (munch c (cs ++ (word ++ behind))).1 = .word) :
    (munch c (cs ++ (word ++ behind))).2 ≤ (cs ++ word).length := by
  refine Nat.le_of_not_lt ?_
  intro hlt
  have hle := munch_le c (cs ++ (word ++ behind))
  generalize hcount :
    (munch c (cs ++ (word ++ behind))).2 = count at hlt hle hcut
  -- The token takes all before the cut and something behind it, so it
  -- is a word.
  obtain ⟨extra, rfl⟩ := Nat.exists_eq_add_of_lt hlt
  have htake : (cs ++ (word ++ behind)).take ((cs ++ word).length + extra + 1)
      = cs ++ word ++ behind.take (extra + 1) := by
    rw [← List.append_assoc, Nat.add_assoc, List.take_length_add_append]
  have hbehind : behind.take (extra + 1) ≠ [] := by
    intro hnil
    rw [List.take_eq_nil_iff] at hnil
    rcases hnil with hnil | rfl
    · cases hnil
    · simp only [List.append_nil] at hle
      omega
  have hpos : 0 < width (behind.take (extra + 1)) :=
    Nat.pos_of_ne_zero (mt width_eq_zero.1 hbehind)
  have hwide : width
        ((cs ++ (word ++ behind)).take ((cs ++ word).length + extra + 1))
      = width (cs ++ word) + width (behind.take (extra + 1)) := by
    rw [htake, width_append]
  have hword := hcut (by omega)
  obtain ⟨hc, hcs⟩ := munch_of_word hword
  rw [hcount, htake] at hcs
  have hmem := List.getLast_mem (List.cons_ne_nil c cs)
  have hnone := hlast _ (List.getLast?_eq_some_getLast (List.cons_ne_nil c cs))
  have hyes : isWordChar ((c :: cs).getLast (List.cons_ne_nil c cs))
      = true := by
    rcases List.mem_cons.1 hmem with heq | hin
    · rw [heq]
      exact hc
    · exact hcs _ (List.mem_append_left _ (List.mem_append_left _ hin))
  rw [hnone] at hyes
  cases hyes

/-! ## Reading up to the cut -/

theorem tokensFrom_of_not_isBlank {c : Char} (h : ¬ isBlank c = true)
    (offset : Nat) (cs : Text) : tokensFrom 0 offset (c :: cs)
      = { kind := (munch c cs).1
          text := String.ofList (c :: cs.take (munch c cs).2)
          start := offset
          stop := offset + width (c :: cs.take (munch c cs).2) }
        :: tokensFrom (munch c cs).2 (offset + c.utf8Size) cs := by
  rw [tokensFrom, if_neg h]

/-- Every token goes beyond where its text starts. -/
theorem lt_stop_of_mem_tokensFrom {skip offset : Nat} {text : Text} {t : Token}
    (h : t ∈ tokensFrom skip offset text) : offset < t.stop := by
  induction text generalizing skip offset with
  | nil => cases h
  | cons c cs ih =>
    have hpos := c.utf8Size_pos
    cases skip with
    | succ n =>
      have := ih h
      omega
    | zero =>
      rw [tokensFrom] at h
      split at h
      · have := ih h
        omega
      · rcases List.mem_cons.1 h with rfl | hrest
        · simp only [width_cons]
          omega
        · have := ih hrest
          omega

theorem filter_tokensFrom_eq_nil {skip offset cut : Nat} (text : Text)
    (h : cut ≤ offset) :
    (tokensFrom skip offset text).filter (·.stop ≤ cut) = [] := by
  rw [List.filter_eq_nil_iff]
  intro t ht
  have := lt_stop_of_mem_tokensFrom ht
  simp only [decide_eq_true_eq]
  omega

/-- If no token but a word lies across the cut behind `a ++ word`, and `a` does
not end in a word character, then the tokens that end in `a` are the same with
and without what stands behind the cut. -/
theorem filter_tokensFrom_append (skip offset : Nat) {a word behind : Text}
    (hlast : ∀ c ∈ a.getLast?, isWordChar c = false)
    (hcut : ∀ t ∈ tokensFrom skip offset (a ++ (word ++ behind)),
      t.start < offset + width (a ++ word) →
        offset + width (a ++ word) < t.stop → t.kind = .word) :
    (tokensFrom skip offset (a ++ (word ++ behind))).filter
        (·.stop ≤ offset + width a)
      = (tokensFrom skip offset (a ++ word)).filter
        (·.stop ≤ offset + width a) := by
  induction a generalizing skip offset with
  | nil =>
    rw [filter_tokensFrom_eq_nil _ (by simp),
      filter_tokensFrom_eq_nil _ (by simp)]
  | cons c cs ih =>
    have hpos := c.utf8Size_pos
    have hlast' : ∀ d ∈ cs.getLast?, isWordChar d = false := by
      intro d hd
      refine hlast d ?_
      rw [Option.mem_def] at hd ⊢
      rw [List.getLast?_cons, hd]
      rfl
    have hwidth : offset + width (c :: cs)
        = offset + c.utf8Size + width cs := by rw [width_cons, Nat.add_assoc]
    have hwhole : offset + width (c :: cs ++ word)
        = offset + c.utf8Size + width (cs ++ word) := by
      rw [List.cons_append, width_cons, Nat.add_assoc]
    -- What is read behind `c`, where nothing but a word lies across the
    -- cut either.
    have hrest : ∀ more,
        (∀ t ∈ tokensFrom more (offset + c.utf8Size) (cs ++ (word ++ behind)),
            t ∈ tokensFrom skip offset (c :: cs ++ (word ++ behind))) →
          (tokensFrom more (offset + c.utf8Size)
              (cs ++ (word ++ behind))).filter
              (·.stop ≤ offset + width (c :: cs))
            = (tokensFrom more (offset + c.utf8Size) (cs ++ word)).filter
              (·.stop ≤ offset + width (c :: cs)) := by
      intro more hsub
      rw [hwidth]
      refine ih more (offset + c.utf8Size) hlast' ?_
      intro t ht hstart hstop
      exact hcut t (hsub t ht) (by omega) (by omega)
    cases skip with
    | succ n => exact hrest n fun t ht => ht
    | zero =>
      rw [List.cons_append] at hcut hrest ⊢
      rw [List.cons_append]
      by_cases hblank : isBlank c = true
      · have hskip : ∀ rest,
            tokensFrom 0 offset (c :: rest)
              = tokensFrom 0 (offset + c.utf8Size) rest := by
          intro rest
          rw [tokensFrom, if_pos hblank]
        rw [hskip, hskip]
        exact hrest 0 fun t ht => by rwa [hskip]
      · have hread :=
          tokensFrom_of_not_isBlank hblank offset (cs ++ (word ++ behind))
        have hle : (munch c (cs ++ (word ++ behind))).2
            ≤ (cs ++ word).length := by
          refine munch_le_of_cut hlast ?_
          intro hlong
          refine hcut _ (hread ▸ List.mem_cons_self) ?_ ?_
          · simp only
            omega
          · simp only [width_cons]
            omega
        have hmunch : munch c (cs ++ word)
            = munch c (cs ++ (word ++ behind)) := by
          rw [← List.append_assoc] at hle ⊢
          exact munch_append_of_le hle
        have htake : (cs ++ (word ++ behind)).take
              (munch c (cs ++ (word ++ behind))).2
            = (cs ++ word).take (munch c (cs ++ (word ++ behind))).2 := by
          rw [← List.append_assoc,
            List.take_append_of_le_length (by rwa [List.append_assoc])]
        have htail :=
          hrest (munch c (cs ++ (word ++ behind))).2 fun t ht =>
            hread ▸ List.mem_cons_of_mem _ ht
        rw [hread, tokensFrom_of_not_isBlank hblank, hmunch, htake,
          List.filter_cons, List.filter_cons, htail]

end QueryAssist
