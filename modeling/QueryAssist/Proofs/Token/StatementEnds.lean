import QueryAssist.Proofs.Token.Division
import QueryAssist.Proofs.Token.Lossless

/-!
# Statements and semicolon tokens

The statement at an offset is cut out of the masked text by looking for the
characters `;` nearest to it. All but some of these are tokens of their own:
in a masked text no literal holds one, but a quoted name may. So a statement
ends where the semicolon tokens have it end, and cuts no token, unless a
quoted name between these tokens holds a semicolon; then it is cut short
there, inside the name.
-/

namespace QueryAssist

open Text

/-! ## Where semicolons stand -/

/-- What a literal shows of its contents in the masked text is blank. -/
theorem isBlank_or_quote_of_mem_string (text : Text) :
    ∀ c ∈ (cleanFrom .string text).take
        (closedLength '\'' (cleanFrom .string text)),
      isBlank c = true ∨ c = '\'' := by
  induction text with
  | nil => simp [cleanFrom, maskFrom]
  | cons d ds ih =>
    by_cases hd : d = '\''
    · subst hd
      have hclean : cleanFrom .string ('\'' :: ds)
          = '\'' :: cleanFrom .code ds := by
        simp [cleanFrom, maskFrom, Masking.hides, Mode.next, Mode.inComment]
      rw [hclean, closedLength, if_pos (by decide)]
      intro c hc
      exact Or.inr (by simpa using hc)
    · have hclean : cleanFrom .string (d :: ds)
          = blankOut d ++ cleanFrom .string ds := by
        simp [cleanFrom, maskFrom, Masking.hides, Mode.next, hd]
      have hopen : ∀ b ∈ blankOut d, b ≠ '\'' := by
        rintro b hb rfl
        exact absurd (blankOut_isBlank d _ hb) (by decide)
      rw [hclean, closedLength_append hopen, List.take_length_add_append]
      intro c hc
      rcases List.mem_append.1 hc with hin | hin
      · exact Or.inl (blankOut_isBlank d c hin)
      · exact ih c hin

/-- No literal of a masked text holds a semicolon. -/
theorem InStep.semicolon_not_mem_string {offset : Nat} {text : Text}
    {ts : List Token} (h : InStep offset text ts) :
    ∀ t ∈ ts, t.kind = .string → ';' ∉ t.text.toList := by
  induction h with
  | done => simp
  | gap hclean hblanks hwidth hrun tail ih => exact ih
  | @token offset c first shown rest kind ts hblank hclean hmunch hwidth
      hverbatim hrun tail ih =>
    intro t ht hkind
    rcases List.mem_cons.1 ht with rfl | ht
    · have hstring : (munch c (shown ++ cleanFrom .code rest)).1 = .string := by
        rw [hmunch]; exact hkind
      obtain ⟨rfl, hlength⟩ := munch_of_string hstring
      -- behind the quote the masked text is that of a literal, and `shown` goes
      -- up to its end
      have hbehind : cleanFrom .string (first ++ rest)
          = shown ++ cleanFrom .code rest := by
        have hkept : cleanFrom .code ('\'' :: (first ++ rest))
            = '\'' :: cleanFrom .string (first ++ rest) :=
          cleanFrom_code_kept rfl
        rw [hclean] at hkept
        exact (List.cons.inj hkept).2.symm
      have hshown : shown = (cleanFrom .string (first ++ rest)).take
          (closedLength '\'' (cleanFrom .string (first ++ rest))) := by
        rw [hbehind, ← hlength, hmunch, List.take_left]
      rw [String.toList_ofList]
      intro hmem
      rcases List.mem_cons.1 hmem with heq | hmem
      · exact absurd heq (by decide)
      · rw [hshown] at hmem
        rcases isBlank_or_quote_of_mem_string (first ++ rest) _ hmem
          with hblank | hquote
        · exact absurd hblank (by decide)
        · exact absurd hquote (by decide)
    · exact ih t ht hkind

/-- A token that holds a semicolon is that semicolon, a literal or a
quoted name. -/
theorem kind_of_semicolon_mem {c : Char} {more rest : Text} {kind : TokenKind}
    (hmunch : munch c (more ++ rest) = (kind, more.length))
    (hmem : ';' ∈ c :: more) :
    (kind = .semicolon ∧ more = []) ∨ kind = .string ∨ kind = .quotedName := by
  by_cases hquote : c = '\'' ∨ c = '"' ∨ c = '\x60'
  · have hkind : (munch c (more ++ rest)).1 = .string ∨
        (munch c (more ++ rest)).1 = .quotedName := by
      rcases hquote with rfl | rfl | rfl
      · exact Or.inl rfl
      · exact Or.inr rfl
      · exact Or.inr rfl
    rw [hmunch] at hkind
    exact Or.inr hkind
  rcases List.mem_cons.1 hmem with heq | hmem
  · subst heq
    have hmark : munch ';' (more ++ rest) = (.semicolon, 0) := rfl
    rw [hmark, Prod.mk.injEq] at hmunch
    exact Or.inl ⟨hmunch.1.symm, List.length_eq_zero_iff.1 hmunch.2.symm⟩
  -- Any other token would go no further than the characters before the
  -- semicolon.
  · obtain ⟨front, back, rfl⟩ := List.append_of_mem hmem
    have hshort :=
      munch_append_semicolon (fun h => absurd h hquote) (a := front)
        (back ++ rest)
    rw [show front ++ ';' :: back ++ rest
        = front ++ ';' :: (back ++ rest) by simp, hshort] at hmunch
    have hle := munch_le c front
    rw [hmunch, List.length_append, List.length_cons] at hle
    omega

/-- A semicolon of a quoted name stands at the offset. -/
def InQuotedName (clean : Text) (offset : Nat) : Prop :=
  HasAt clean offset ';' ∧
    ∃ t ∈ tokenize clean,
      t.kind = .quotedName ∧ t.start < offset ∧ offset < t.stop

/-- A semicolon token starts at the offset. -/
def IsSemicolonToken (clean : Text) (offset : Nat) : Prop :=
  ∃ t ∈ tokenize clean, t.kind = .semicolon ∧ t.start = offset

theorem IsSemicolonToken.hasAt {clean : Text} {offset : Nat}
    (h : IsSemicolonToken clean offset) : HasAt clean offset ';' := by
  obtain ⟨t, ht, hkind, rfl⟩ := h
  exact (hasAt_mark ht (by rw [hkind]; rfl)).1

/-- A semicolon of the masked text is a token or stands in a quoted name. -/
theorem semicolon_cases {text : Text} {offset : Nat}
    (h : HasAt text.sanitize offset ';') :
    IsSemicolonToken text.sanitize offset ∨
      InQuotedName text.sanitize offset := by
  obtain ⟨a, b, htext, hwidth⟩ := h
  obtain ⟨t, ht, hstart, hstop⟩ :=
    (lexes_tokenize text.sanitize).covers htext (by decide)
  rw [Nat.zero_add, hwidth] at hstart hstop
  obtain ⟨front, c, more, rest, hparts, hblank, hmunch, hchars, hfront,
    hback⟩ :=
    (lexes_tokenize text.sanitize).parts ht [] rfl
  -- The semicolon is one of the token's characters.
  have hsplit : front ++ ((c :: more) ++ rest) = a ++ ';' :: b := by
    rw [← htext]; exact hparts.symm
  obtain ⟨inside, rfl, hinside⟩ := append_eq_of_width_le hsplit (by omega)
  have hlt : width inside < width (c :: more) := by
    rw [width_append] at hwidth
    omega
  obtain ⟨later, hlater, -⟩ :=
    append_eq_of_width_le hinside.symm (Nat.le_of_lt hlt)
  have hmem : ';' ∈ c :: more := by
    cases later with
    | nil =>
      rw [hlater, List.append_nil] at hlt
      omega
    | cons d ds =>
      rw [hlater, List.append_assoc, List.append_cancel_left_eq,
        List.cons_append] at hinside
      rw [hlater, (List.cons.inj hinside).1]
      simp
  rcases kind_of_semicolon_mem hmunch hmem with ⟨hkind, rfl⟩ | hkind | hkind
  · left
    refine ⟨t, ht, hkind, ?_⟩
    have hzero : width inside = 0 := by
      have hc : c = ';' := (List.mem_singleton.1 hmem).symm
      rw [hc] at hlt
      have : width [';'] = 1 := rfl
      omega
    rw [hfront, ← hwidth, width_append, hzero, Nat.add_zero]
  · have hnone := (inStep_cleanFrom 0 text).semicolon_not_mem_string t ht hkind
    rw [hchars, String.toList_ofList] at hnone
    exact absurd hmem hnone
  · right
    refine ⟨⟨_, b, htext, hwidth⟩, t, ht, hkind, ?_, hstop⟩
    have hopening : inside ≠ [] := by
      rintro rfl
      have hc : c = ';' := (List.cons.inj hinside).1
      rcases munch_of_quotedName (by rw [hmunch]; exact hkind) with rfl | rfl
        <;> cases hc
    have : width inside ≠ 0 := fun hzero => hopening (width_eq_zero.1 hzero)
    rw [width_append] at hwidth
    omega

/-! ## The nearest marks around an offset -/

/-- The bounds of what lies around an offset between marks: they are marks or
the ends of the text, and no mark is between them. A mark takes one byte. -/
structure Encloses (mark : Nat → Prop) (size offset : Nat)
    (bounds : Nat × Nat) : Prop where
  clear : ∀ i, mark i → i < bounds.1 ∨ bounds.2 ≤ i
  start_le : bounds.1 ≤ offset
  le_stop : offset ≤ bounds.2
  stop_le : bounds.2 ≤ size
  start_at : bounds.1 = 0 ∨ ∃ i, mark i ∧ bounds.1 = i + 1
  stop_at : bounds.2 = size ∨ mark bounds.2

namespace Encloses

variable {mark fewer : Nat → Prop} {size offset : Nat}
  {bounds wider : Nat × Nat}

/-- Fewer marks enclose no less. -/
theorem le_of_imp (h : Encloses mark size offset bounds)
    (h' : Encloses fewer size offset wider) (hsub : ∀ i, fewer i → mark i) :
    wider.1 ≤ bounds.1 ∧ bounds.2 ≤ wider.2 := by
  have hstart := h.start_le
  have hstop := h.le_stop
  have hstart' := h'.start_le
  have hstop' := h'.le_stop
  constructor
  · rcases h'.start_at with hzero | ⟨i, hi, heq⟩
    · omega
    · rcases h.clear i (hsub i hi) with hlt | hle <;> omega
  · rcases h'.stop_at with hend | hmark
    · rw [hend]
      exact h.stop_le
    · rcases h.clear _ (hsub _ hmark) with hlt | hle <;> omega

/-- They enclose the same iff no other mark is between the fewer ones. -/
theorem eq_iff (h : Encloses mark size offset bounds)
    (h' : Encloses fewer size offset wider) (hsub : ∀ i, fewer i → mark i) :
    bounds = wider ↔ ∀ i, mark i → ¬ fewer i → i < wider.1 ∨ wider.2 ≤ i := by
  constructor
  · rintro rfl i hi -
    exact h.clear i hi
  · intro hothers
    have hclear : Encloses mark size offset wider :=
      { h' with
        clear :=
          fun i hi => (Classical.em (fewer i)).elim (h'.clear i) (hothers i hi)
        start_at :=
          h'.start_at.imp_right fun ⟨i, hi, heq⟩ => ⟨i, hsub i hi, heq⟩
        stop_at := h'.stop_at.imp_right (hsub _) }
    have hle := h.le_of_imp hclear fun _ hi => hi
    have hge := hclear.le_of_imp h fun _ hi => hi
    exact Prod.ext (Nat.le_antisymm hge.1 hle.1) (Nat.le_antisymm hle.2 hge.2)

/-- A bound that differs is at another mark. -/
theorem start_of_ne (h : Encloses mark size offset bounds)
    (h' : Encloses fewer size offset wider) (hsub : ∀ i, fewer i → mark i)
    (hne : bounds.1 ≠ wider.1) :
    wider.1 < bounds.1 ∧ mark (bounds.1 - 1) ∧ ¬ fewer (bounds.1 - 1) := by
  have hlt : wider.1 < bounds.1 :=
    Nat.lt_of_le_of_ne (h.le_of_imp h' hsub).1 (Ne.symm hne)
  have hstart := h.start_le
  have hstop := h'.le_stop
  rcases h.start_at with hzero | ⟨i, hi, heq⟩
  · omega
  · rw [show bounds.1 - 1 = i by omega]
    refine ⟨hlt, hi, ?_⟩
    intro hfewer
    rcases h'.clear i hfewer with hlt | hle <;> omega

theorem stop_of_ne (h : Encloses mark size offset bounds)
    (h' : Encloses fewer size offset wider) (hsub : ∀ i, fewer i → mark i)
    (hne : bounds.2 ≠ wider.2) :
    bounds.2 < wider.2 ∧ mark bounds.2 ∧ ¬ fewer bounds.2 := by
  have hlt : bounds.2 < wider.2 :=
    Nat.lt_of_le_of_ne (h.le_of_imp h' hsub).2 hne
  have hstart := h'.start_le
  have hstop := h.le_stop
  have hsize := h'.stop_le
  rcases h.stop_at with hend | hmark
  · omega
  · refine ⟨hlt, hmark, ?_⟩
    intro hfewer
    rcases h'.clear _ hfewer with hlt | hle <;> omega

end Encloses

/-! ## Bounds by characters -/

/-- A text is cut behind its last semicolon. -/
theorem exists_last_semicolon (text : Text) :
    ∃ earlier, text = earlier ++ (text.reverse.takeWhile (· != ';')).reverse ∧
      (earlier = [] ∨ ∃ front, earlier = front ++ [';']) := by
  refine ⟨(text.reverse.dropWhile (· != ';')).reverse, ?_, ?_⟩
  · rw [← List.reverse_append, List.takeWhile_append_dropWhile,
      List.reverse_reverse]
  · have hhead := List.head?_dropWhile_not (· != ';') text.reverse
    cases hrest : text.reverse.dropWhile (· != ';') with
    | nil => exact Or.inl rfl
    | cons c cs =>
      rw [hrest] at hhead
      have hc : c = ';' := by simpa using hhead
      exact Or.inr ⟨cs.reverse, by rw [hc, List.reverse_cons]⟩

/-- A text is cut before its first semicolon. -/
theorem exists_first_semicolon (text : Text) :
    ∃ later, text = text.takeWhile (· != ';') ++ later ∧
      (later = [] ∨ ∃ back, later = ';' :: back) := by
  refine ⟨text.dropWhile (· != ';'), (List.takeWhile_append_dropWhile ..).symm,
    ?_⟩
  have hhead := List.head?_dropWhile_not (· != ';') text
  cases hrest : text.dropWhile (· != ';') with
  | nil => exact Or.inl rfl
  | cons c cs =>
    rw [hrest] at hhead
    have hc : c = ';' := by simpa using hhead
    exact Or.inr ⟨cs, by rw [hc]⟩

theorem semicolon_not_mem_takeWhile (text : Text) :
    ';' ∉ text.takeWhile (· != ';') := by
  intro hmem
  simpa using List.all_eq_true.1 List.all_takeWhile _ hmem

/-- A character that does not occur in the middle of a text stands before
or behind it. -/
theorem HasAt.outside {a b c : Text} {i : Nat} {d : Char}
    (h : HasAt (a ++ b ++ c) i d) (hb : d ∉ b) :
    i < width a ∨ width (a ++ b) ≤ i := by
  obtain ⟨front, back, htext, rfl⟩ := h
  by_cases hstart : width front < width a
  · exact Or.inl hstart
  by_cases hstop : width (a ++ b) ≤ width front
  · exact Or.inr hstop
  rw [List.append_assoc] at htext
  obtain ⟨inside, rfl, hrest⟩ :=
    append_eq_of_width_le htext (Nat.le_of_not_lt hstart)
  have hlt : width inside < width b := by
    rw [width_append, width_append] at hstop
    omega
  obtain ⟨behind, rfl, hbehind⟩ :=
    append_eq_of_width_le hrest.symm (Nat.le_of_lt hlt)
  cases behind with
  | nil => simp at hlt
  | cons e es =>
    rw [(List.cons.inj hbehind).1] at hb
    simp at hb

/-- The statement at an offset is enclosed by semicolons of the text. -/
theorem encloses_statementBounds (clean : Text) (offset : Nat) :
    Encloses (HasAt clean · ';') (width clean) (clean.floor offset)
      (clean.statementBounds offset) := by
  obtain ⟨earlier, hearlier, hfirst⟩ :=
    exists_last_semicolon (clean.upTo offset)
  obtain ⟨later, hlater, hlast⟩ := exists_first_semicolon (clean.after offset)
  generalize hbefore :
    ((clean.upTo offset).reverse.takeWhile (· != ';')) = before at hearlier
  generalize hrest : (clean.after offset).takeWhile (· != ';') = rest at hlater
  have hclean : clean = earlier ++ (before.reverse ++ rest) ++ later := by
    calc clean = clean.upTo offset ++ clean.after offset :=
      (upTo_append_after clean offset).symm
      _ = earlier ++ (before.reverse ++ rest) ++ later := by
        rw [hearlier, hlater]
        simp
  have hfloor : clean.floor offset = width earlier + width before := by
    rw [floor, hearlier, width_append, width_reverse]
  have hbounds : clean.statementBounds offset
      = (width earlier, width (earlier ++ (before.reverse ++ rest))) := by
    rw [statementBounds_eq, hbefore, hrest, hearlier]
    simp only [width_append, width_reverse]
    ext <;> simp only <;> omega
  have hnone : ';' ∉ before.reverse ++ rest := by
    rw [List.mem_append, List.mem_reverse, ← hbefore, ← hrest, not_or]
    exact ⟨semicolon_not_mem_takeWhile _, semicolon_not_mem_takeWhile _⟩
  rw [hbounds]
  constructor
  · intro i hi
    have hi : HasAt clean i ';' := hi
    rw [hclean] at hi
    exact HasAt.outside hi hnone
  · simp only
    omega
  · simp only [width_append, width_reverse]
    omega
  · rw [hclean]
    simp
  · rcases hfirst with rfl | ⟨front, rfl⟩
    · exact Or.inl rfl
    · right
      refine ⟨width front,
        ⟨front, before.reverse ++ rest ++ later, by rw [hclean]; simp, rfl⟩, ?_⟩
      rw [width_append]
      rfl
  · rcases hlast with rfl | ⟨back, rfl⟩
    · left
      simp only
      rw [hclean, List.append_nil]
    · right
      exact ⟨_, back, hclean, rfl⟩

/-! ## Bounds by tokens -/

/-- Start and end of the statement at an offset as the tokens of a text of this
size have it: from the end of the last semicolon that starts before the offset
to the start of the first one that does not. -/
def semicolonBounds (tokens : List Token) (size offset : Nat) : Nat × Nat :=
  let semicolons := tokens.filter (·.kind == .semicolon)
  (((semicolons.filter (·.start < offset)).getLast?.map Token.stop).getD 0,
    ((semicolons.find? (offset ≤ ·.start)).map Token.start).getD size)

theorem le_getLast_of_pairwise {ts : List Token}
    (h : ts.Pairwise (·.start < ·.start)) {t last : Token} (ht : t ∈ ts)
    (hlast : ts.getLast? = some last) : t.start ≤ last.start := by
  obtain ⟨front, rfl⟩ := List.getLast?_eq_some_iff.1 hlast
  rcases List.mem_append.1 ht with hin | hin
  · exact Nat.le_of_lt ((List.pairwise_append.1 h).2.2 t hin last (by simp))
  · exact Nat.le_of_eq (congrArg Token.start (List.mem_singleton.1 hin))

theorem find?_le_of_pairwise {ts : List Token}
    (h : ts.Pairwise (·.start < ·.start)) {p : Token → Bool} {t first : Token}
    (ht : t ∈ ts) (hp : p t = true)
    (hfirst : ts.find? p = some first) : first.start ≤ t.start := by
  obtain ⟨-, front, back, rfl, hnone⟩ := List.find?_eq_some_iff_append.1 hfirst
  rcases List.mem_append.1 ht with hin | hin
  · exact absurd hp (by simpa using hnone t hin)
  · rcases List.mem_cons.1 hin with rfl | hin
    · exact Nat.le_refl _
    · exact Nat.le_of_lt
        ((List.pairwise_cons.1 (List.pairwise_append.1 h).2.1).1 t hin)

theorem semicolon_token {text : Text} {t : Token}
    (h : t ∈ (tokenize text.sanitize).filter (·.kind == .semicolon)) :
    IsSemicolonToken text.sanitize t.start ∧ t.stop = t.start + 1 ∧
      text.sanitize.isBoundary t.stop = true := by
  obtain ⟨ht, hkind⟩ := List.mem_filter.1 h
  have hkind : t.kind = .semicolon := by simpa using hkind
  have hmark : t.kind.mark? = some ';' := by rw [hkind]; rfl
  have hstop : t.stop = t.start + 1 := stop_of_mark ht hmark
  refine ⟨⟨t, ht, hkind, rfl⟩, hstop, ?_⟩
  rw [hstop]
  exact (hasAt_mark ht hmark).1.isRange.stop_boundary

/-- The semicolon tokens around an offset enclose it. -/
theorem encloses_semicolonBounds (text : Text) (offset : Nat) :
    Encloses (IsSemicolonToken text.sanitize) (width text.sanitize)
      (text.sanitize.floor offset)
      (semicolonBounds (tokenize text.sanitize)
        (width text.sanitize) offset) := by
  have hordered : ((tokenize text.sanitize).filter
      (·.kind == .semicolon)).Pairwise (·.start < ·.start) :=
    ((lexes_tokenize text.sanitize).ordered.imp And.left).filter _
  have hall : ∀ i, IsSemicolonToken text.sanitize i →
      ∃ t ∈ (tokenize text.sanitize).filter (·.kind == .semicolon),
        t.start = i := by
    rintro i ⟨t, ht, hkind, rfl⟩
    exact ⟨t, List.mem_filter.2 ⟨ht, by simp [hkind]⟩, rfl⟩
  have htoken : ∀ t ∈ (tokenize text.sanitize).filter (·.kind == .semicolon),
      IsSemicolonToken text.sanitize t.start ∧ t.stop = t.start + 1 ∧
        text.sanitize.isBoundary t.stop = true := fun t => semicolon_token
  have hfloor : text.sanitize.floor offset ≤ width text.sanitize := by
    have hsplit := congrArg width (upTo_append_after text.sanitize offset)
    rw [width_append] at hsplit
    exact Nat.le.intro hsplit
  -- A semicolon starts before the offset iff it ends at or before the boundary
  -- below the offset.
  have hbefore : ∀ t ∈ (tokenize text.sanitize).filter (·.kind == .semicolon),
      t.start < offset ↔ t.stop ≤ text.sanitize.floor offset := by
    intro t ht
    rw [le_floor_iff (htoken t ht).2.2, (htoken t ht).2.1]
    exact Iff.rfl
  simp only [semicolonBounds]
  generalize (tokenize text.sanitize).filter (·.kind == .semicolon)
    = semicolons at *
  constructor
  · intro i hi
    obtain ⟨t, ht, rfl⟩ := hall i hi
    by_cases hlt : t.start < offset
    · left
      have hmem : t ∈ semicolons.filter (·.start < offset) :=
        List.mem_filter.2 ⟨ht, by simpa using hlt⟩
      have hlast := List.getLast?_eq_some_getLast (List.ne_nil_of_mem hmem)
      generalize (semicolons.filter (·.start < offset)).getLast _
        = last at hlast
      have hle := le_getLast_of_pairwise (hordered.filter _) hmem hlast
      have hstop :=
        (htoken last (List.mem_filter.1 (List.mem_of_getLast? hlast)).1).2.1
      rw [hlast, Option.map_some, Option.getD_some]
      omega
    · right
      have hp : decide (offset ≤ t.start) = true := by
        simpa using Nat.le_of_not_lt hlt
      have hsome : (semicolons.find? (offset ≤ ·.start)).isSome = true :=
        List.find?_isSome.2 ⟨t, ht, hp⟩
      obtain ⟨first, hfirst⟩ := Option.isSome_iff_exists.1 hsome
      rw [hfirst]
      exact find?_le_of_pairwise hordered ht hp hfirst
  · cases hlast : (semicolons.filter (·.start < offset)).getLast? with
    | none => exact Nat.zero_le _
    | some last =>
      obtain ⟨hmem, hlt⟩ := List.mem_filter.1 (List.mem_of_getLast? hlast)
      exact (hbefore last hmem).1 (by simpa using hlt)
  · cases hfirst : semicolons.find? (offset ≤ ·.start) with
    | none => exact hfloor
    | some first =>
      have hle : offset ≤ first.start := by simpa using List.find?_some hfirst
      exact Nat.le_trans (floor_le _ offset) hle
  · cases hfirst : semicolons.find? (offset ≤ ·.start) with
    | none => exact Nat.le_refl _
    | some first =>
      have hmem := htoken first (List.mem_of_find?_eq_some hfirst)
      have hle := isBoundary_le hmem.2.2
      have hstop := hmem.2.1
      simp only [Option.map_some, Option.getD_some]
      omega
  · cases hlast : (semicolons.filter (·.start < offset)).getLast? with
    | none => exact Or.inl rfl
    | some last =>
      have hmem :=
        htoken last (List.mem_filter.1 (List.mem_of_getLast? hlast)).1
      exact Or.inr ⟨last.start, hmem.1, hmem.2.1⟩
  · cases hfirst : semicolons.find? (offset ≤ ·.start) with
    | none => exact Or.inl rfl
    | some first =>
      exact Or.inr (htoken first (List.mem_of_find?_eq_some hfirst)).1

/-- A token lies on one side of where a semicolon starts, and on one side of
where it ends. -/
theorem apart_of_semicolon {text : Text} {i : Nat}
    (h : IsSemicolonToken text.sanitize i) {t : Token}
    (ht : t ∈ tokenize text.sanitize) :
    (t.stop ≤ i ∨ i ≤ t.start) ∧ (t.stop ≤ i + 1 ∨ i + 1 ≤ t.start) := by
  obtain ⟨s, hs, hkind, rfl⟩ := h
  have hmark : s.kind.mark? = some ';' := by rw [hkind]; rfl
  have hstop : s.stop = s.start + 1 := stop_of_mark hs hmark
  have hordered := (lexes_tokenize text.sanitize).ordered
  by_cases heq : t = s
  · subst heq
    omega
  · obtain hlt | hgt : t.stop ≤ s.start ∨ s.stop ≤ t.start := by
      obtain ⟨front, back, htokens⟩ := List.append_of_mem hs
      rw [htokens] at hordered ht
      obtain ⟨-, hback, hcross⟩ := List.pairwise_append.1 hordered
      rcases List.mem_append.1 ht with hin | hin
      · exact Or.inl (hcross t hin s (by simp)).2
      · rcases List.mem_cons.1 hin with rfl | hin
        · exact absurd rfl heq
        · exact Or.inr ((List.pairwise_cons.1 hback).1 t hin).2
    · omega
    · omega

/-- Bounds at semicolon tokens cut no token. -/
theorem Encloses.cuts_no_token {text : Text} {offset : Nat} {bounds : Nat × Nat}
    (h : Encloses (IsSemicolonToken text.sanitize) (width text.sanitize)
      offset bounds) {t : Token} (ht : t ∈ tokenize text.sanitize) :
    t.stop ≤ bounds.1 ∨ (bounds.1 ≤ t.start ∧ t.stop ≤ bounds.2) ∨
      bounds.2 ≤ t.start := by
  have hstart : t.stop ≤ bounds.1 ∨ bounds.1 ≤ t.start := by
    rcases h.start_at with hzero | ⟨i, hi, heq⟩
    · exact Or.inr (by omega)
    · rw [heq]
      exact (apart_of_semicolon hi ht).2
  have hstop : t.stop ≤ bounds.2 ∨ bounds.2 ≤ t.start := by
    rcases h.stop_at with hend | hmark
    · have hle :=
        isBoundary_le ((aligned_tokenize text).range t ht).stop_boundary
      rw [hend, sanitize, width_maskFrom]
      exact Or.inl hle
    · exact (apart_of_semicolon hmark ht).1
  omega

/-! ## Characters against tokens -/

theorem not_isSemicolonToken_of_inQuotedName {text : Text} {i : Nat}
    (h : InQuotedName text.sanitize i) :
    ¬ IsSemicolonToken text.sanitize i := by
  obtain ⟨-, t, ht, -, hstart, hstop⟩ := h
  intro htoken
  have := (apart_of_semicolon htoken ht).1
  omega

/-- The statement at an offset is the one that the semicolon tokens enclose, and
then cuts no token, iff no quoted name between these semicolons holds another.
Otherwise a bound that differs is inside: the statement starts right behind a
semicolon of a quoted name, or ends at one. -/
theorem statements_end_at_semicolon_tokens_iff (text : Text) (offset : Nat) :
    let clean := text.sanitize
    let bounds := clean.statementBounds offset
    let ends := semicolonBounds (tokenize clean) (width clean) offset
    (bounds = ends ↔ ∀ i, InQuotedName clean i → i < ends.1 ∨ ends.2 ≤ i) ∧
      (bounds = ends →
        ∀ t ∈ tokenize clean, t.stop ≤ bounds.1 ∨
          (bounds.1 ≤ t.start ∧ t.stop ≤ bounds.2) ∨ bounds.2 ≤ t.start) ∧
      (bounds.1 ≠ ends.1 →
        ends.1 < bounds.1 ∧ InQuotedName clean (bounds.1 - 1)) ∧
      (bounds.2 ≠ ends.2 →
        bounds.2 < ends.2 ∧ InQuotedName clean bounds.2) := by
  intro clean bounds ends
  have hchars : Encloses (HasAt clean · ';') (width clean)
      (clean.floor offset) bounds := encloses_statementBounds clean offset
  have htokens : Encloses (IsSemicolonToken clean) (width clean)
      (clean.floor offset) ends :=
    encloses_semicolonBounds text offset
  have hsub : ∀ i, IsSemicolonToken clean i → HasAt clean i ';' :=
    fun i hi => hi.hasAt
  have hother : ∀ i, HasAt clean i ';' ∧ ¬ IsSemicolonToken clean i ↔
      InQuotedName clean i := by
    intro i
    constructor
    · rintro ⟨hi, hnot⟩
      exact (semicolon_cases hi).resolve_left hnot
    · intro hi
      exact ⟨hi.1, not_isSemicolonToken_of_inQuotedName hi⟩
  refine ⟨?_, ?_, ?_, ?_⟩
  · rw [hchars.eq_iff htokens hsub]
    refine forall_congr' fun i => ?_
    rw [← hother i, and_imp]
  · intro heq t ht
    rw [heq]
    exact htokens.cuts_no_token ht
  · intro hne
    obtain ⟨hlt, hother'⟩ := hchars.start_of_ne htokens hsub hne
    exact ⟨hlt, (hother _).1 hother'⟩
  · intro hne
    obtain ⟨hlt, hother'⟩ := hchars.stop_of_ne htokens hsub hne
    exact ⟨hlt, (hother _).1 hother'⟩

/-- Semicolons in a literal, in a comment, between two statements, and in a
quoted name of the second one. -/
def dividedQuery : Text := "SELECT ';' /* ; */ FROM t; SELECT \"a;b\"".toList

theorem statements_end_at_semicolon_tokens_dividedQuery :
    dividedQuery.sanitize.statementBounds 12 = (0, 25) ∧
      InQuotedName dividedQuery.sanitize 36 ∧
      ∀ t ∈ tokenize dividedQuery.sanitize, t.stop ≤ 25 ∨ 25 ≤ t.start := by
  obtain ⟨hiff, huncut, -, -⟩ :=
    statements_end_at_semicolon_tokens_iff dividedQuery 12
  have hends : semicolonBounds (tokenize dividedQuery.sanitize)
        (width dividedQuery.sanitize) 12
      = (0, 25) := by
    decide +kernel
  have hnames : ∀ t ∈ tokenize dividedQuery.sanitize,
      t.kind = .quotedName → 25 ≤ t.start := by decide +kernel
  rw [hends] at hiff huncut
  have hbounds : dividedQuery.sanitize.statementBounds 12 = (0, 25) := by
    refine hiff.2 ?_
    rintro i ⟨-, t, ht, hkind, hstart, -⟩
    have hle := hnames t ht hkind
    exact Or.inr (by simp only; omega)
  refine ⟨hbounds, ?_, ?_⟩
  · have hat : HasAt dividedQuery.sanitize 36 ';' :=
      ⟨dividedQuery.sanitize.upTo 36, ['b', '"'], by decide +kernel,
        by decide +kernel⟩
    exact ⟨hat, ⟨.quotedName, "\"a;b\"", 34, 39⟩, by decide +kernel, rfl,
      by decide, by decide⟩
  · intro t ht
    have hplace := huncut hbounds t ht
    rw [hbounds] at hplace
    simp only at hplace
    omega

/-- A quoted name with a semicolon. -/
def quotedSemicolon : Text := "SELECT \"a;b\" FROM t".toList

/-- The statement stops inside the quoted name, where no semicolon
token starts. -/
theorem statement_stops_in_name_quotedSemicolon :
    quotedSemicolon.sanitize.isBoundary 0 = true ∧
      quotedSemicolon.sanitize.statementBounds 0 = (0, 9) ∧
      semicolonBounds (tokenize quotedSemicolon.sanitize)
          (width quotedSemicolon.sanitize) 0
        = (0, 19) ∧
      (⟨.quotedName, "\"a;b\"", 7, 12⟩ : Token)
        ∈ tokenize quotedSemicolon.sanitize := by
  decide +kernel

end QueryAssist
