import QueryAssist.Proofs.Text.Masking
import QueryAssist.Text.Parens

/-!
# The scan for parentheses

What one character does to the scan, and what a scan of a part of a text says of
the whole. A scan that starts at an opening parenthesis does the same as one
that started earlier, only less deep, until it comes to the parenthesis that
closes the first. So after any first part of a text the parentheses that are
still open are known with their levels, and a closing parenthesis belongs to the
innermost of them.
-/

namespace QueryAssist.Text

/-! ## Scans in parts -/

theorem closingFrom_append (state : Nesting) (offset : Nat) (a b : Text) :
    closingFrom state offset (a ++ b)
      = (closingFrom state offset a).or
        (closingFrom (a.foldl Nesting.step state) (offset + width a) b) := by
  induction a generalizing state offset with
  | nil => rfl
  | cons c cs ih =>
    rw [List.cons_append, closingFrom, closingFrom]
    split
    · rfl
    · rw [ih, List.foldl_cons, width_cons, Nat.add_assoc]

theorem closingFrom_add (state : Nesting) (offset n : Nat) (text : Text) :
    closingFrom state (offset + n) text
      = (closingFrom state offset text).map (· + n) := by
  induction text generalizing state offset with
  | nil => rfl
  | cons c cs ih =>
    rw [closingFrom, closingFrom]
    split
    · rfl
    · rw [← ih, Nat.add_right_comm]

/-- Whether anything is closed down to depth zero does not depend on where the
text starts. -/
theorem closingFrom_eq_none_iff {state : Nesting} {text : Text} (offset : Nat) :
    closingFrom state offset text = none ↔ closingFrom state 0 text = none := by
  rw [← Nat.zero_add offset, closingFrom_add, Option.map_eq_none_iff]

/-- The scan ends at the first character that closes down to depth zero. -/
theorem closingFrom_eq_some {state : Nesting} {offset close : Nat} {text : Text}
    (h : closingFrom state offset text = some close) :
    ∃ a c b, text = a ++ c :: b ∧ offset + width a = close ∧
      closingFrom state 0 a = none ∧
      (a.foldl Nesting.step state).event c = .closed ∧
      ((a.foldl Nesting.step state).step c).depth = 0 := by
  induction text generalizing state offset with
  | nil => cases h
  | cons c cs ih =>
    rw [closingFrom] at h
    split at h
    · rename_i hcloses
      exact ⟨[], c, cs, rfl, Option.some.inj h, rfl, hcloses⟩
    · rename_i hgoes
      obtain ⟨a, d, b, rfl, hclose, hnone, hcloses⟩ := ih h
      refine ⟨c :: a, d, b, rfl, ?_, ?_, hcloses⟩
      · rw [width_cons, ← hclose, Nat.add_assoc]
      · rw [closingFrom, if_neg hgoes, closingFrom_eq_none_iff]
        exact hnone

/-- How deep the nesting is after an event. -/
def ParenEvent.depthAfter : ParenEvent → Nat → Nat
  | .opened, depth => depth + 1
  | .closed, depth => depth - 1
  | .underflow, depth => depth
  | .other, depth => depth

namespace Nesting

variable {state : Nesting} {chars : Text}

/-! ## One character -/

theorem event_eq_opened_iff {c : Char} :
    state.event c = .opened ↔ c = '(' ∧ state.inString = false := by
  unfold event
  grind

/-- A closing parenthesis outside literals closes what is open. -/
theorem event_eq_closed_iff {c : Char} :
    state.event c = .closed ↔
      c = ')' ∧ state.inString = false ∧ state.depth ≠ 0 := by
  unfold event
  grind

theorem event_eq_underflow_iff {c : Char} :
    state.event c = .underflow ↔
      c = ')' ∧ state.inString = false ∧ state.depth = 0 := by
  unfold event
  grind

theorem depth_step (state : Nesting) (c : Char) :
    (state.step c).depth = (state.event c).depthAfter state.depth := by
  unfold step
  split
  · rename_i hquote
    have hevent : state.event c = .other := by
      rw [eq_of_beq hquote]
      unfold event
      split <;> rfl
    rw [hevent]
    rfl
  · cases state.event c <;> rfl

/-! ## Deeper nesting -/

/-- The same state inside `more` further parentheses. -/
def deeper (state : Nesting) (more : Nat) : Nesting :=
  { state with depth := state.depth + more }

theorem event_deeper (h : state.depth ≠ 0) (more : Nat) (c : Char) :
    (state.deeper more).event c = state.event c := by
  simp [event, deeper, h]

theorem step_deeper (h : state.depth ≠ 0) (more : Nat) (c : Char) :
    (state.deeper more).step c = (state.step c).deeper more := by
  unfold step
  rw [event_deeper h]
  split
  · rfl
  · rcases state.event c <;> simp only [deeper, Nesting.mk.injEq, and_true]
      <;> omega

/-- Depth zero is come to by a closing parenthesis only. -/
theorem event_of_step_depth (h : state.depth ≠ 0) {c : Char}
    (hzero : (state.step c).depth = 0) : state.event c = .closed := by
  rw [depth_step] at hzero
  cases hevent : state.event c with
  | closed => rfl
  | opened =>
    rw [hevent] at hzero
    cases hzero
  | underflow | other =>
    rw [hevent] at hzero
    exact absurd hzero h

/-- A scan closes nothing down to depth zero as long as it does not come to
depth zero. -/
theorem closingFrom_cons_eq_none (h : state.depth ≠ 0) {c : Char} :
    closingFrom state 0 (c :: chars) = none ↔
      (state.step c).depth ≠ 0 ∧ closingFrom (state.step c) 0 chars = none := by
  rw [closingFrom]
  split
  · rename_i hcloses
    simp [hcloses.2]
  · rename_i hgoes
    have hnext : (state.step c).depth ≠ 0 :=
      fun hzero => hgoes ⟨event_of_step_depth h hzero, hzero⟩
    rw [closingFrom_eq_none_iff]
    simp [hnext]

theorem depth_of_closingFrom_eq_none (h : state.depth ≠ 0)
    (hnone : closingFrom state 0 chars = none) :
    (chars.foldl step state).depth ≠ 0 := by
  induction chars generalizing state with
  | nil => exact h
  | cons c cs ih =>
    obtain ⟨hnext, hrest⟩ := (closingFrom_cons_eq_none h).1 hnone
    exact ih hnext hrest

/-- A scan that never closes down to depth zero does the same inside further
parentheses. -/
theorem scan_deeper (h : state.depth ≠ 0)
    (hnone : closingFrom state 0 chars = none) (more : Nat) :
    closingFrom (state.deeper more) 0 chars = none ∧
      chars.foldl step (state.deeper more)
        = (chars.foldl step state).deeper more := by
  induction chars generalizing state with
  | nil => exact ⟨rfl, rfl⟩
  | cons c cs ih =>
    obtain ⟨hnext, hrest⟩ := (closingFrom_cons_eq_none h).1 hnone
    obtain ⟨hcs, hthrough⟩ := ih hnext hrest
    have hdeep : ∀ s : Nesting, s.depth ≠ 0 → (s.deeper more).depth ≠ 0 := by
      intro s hs
      simp only [deeper]
      omega
    rw [closingFrom_cons_eq_none (hdeep _ h), step_deeper h, List.foldl_cons,
      List.foldl_cons, step_deeper h]
    exact ⟨⟨hdeep _ hnext, hcs⟩, hthrough⟩

end Nesting

/-! ## Parentheses that are open -/

/-- The state of the scan behind a text. -/
def nestingAfter (text : Text) : Nesting := text.foldl Nesting.step {}

theorem nestingAfter_concat (a : Text) (c : Char) :
    nestingAfter (a ++ [c]) = (nestingAfter a).step c := by
  rw [nestingAfter, List.foldl_append]
  rfl

/-- The character `c` stands at an offset, and the scan meets it
outside literals. -/
def SeenAt (text : Text) (offset : Nat) (c : Char) : Prop :=
  ∃ a b,
    text = a ++ c :: b ∧ width a = offset ∧ (nestingAfter a).inString = false

theorem SeenAt.hasAt {text : Text} {offset : Nat} {c : Char}
    (h : SeenAt text offset c) : HasAt text offset c := by
  obtain ⟨a, b, htext, hwidth, -⟩ := h
  exact ⟨a, b, htext, hwidth⟩

/-- The opening parenthesis at an offset is open after the text; `count` are,
itself and those inside it. -/
def OpenAt (text : Text) (offset count : Nat) : Prop :=
  ∃ a b, text = a ++ '(' :: b ∧ width a = offset ∧
    (nestingAfter a).inString = false ∧ closingFrom { depth := 1 } 0 b = none ∧
    (b.foldl Nesting.step { depth := 1 }).depth = count

/-- Behind an opening parenthesis that stays open, the scan is as if it had
started there, only deeper. -/
theorem nestingAfter_open {a b : Text}
    (hout : (nestingAfter a).inString = false)
    (hopen : closingFrom { depth := 1 } 0 b = none) :
    nestingAfter (a ++ '(' :: b)
      = (b.foldl Nesting.step { depth := 1 }).deeper
        (nestingAfter a).depth := by
  have hparen : (nestingAfter a).step '('
      = Nesting.deeper { depth := 1 } (nestingAfter a).depth := by
    have hevent : (nestingAfter a).event '(' = .opened :=
      Nesting.event_eq_opened_iff.2 ⟨rfl, hout⟩
    have hquote : ('(' == '\'') = false := rfl
    simp only [Nesting.step, hquote, hevent, Nesting.deeper, hout,
      Nat.add_comm 1, Bool.false_eq_true, if_false]
  rw [nestingAfter, List.foldl_append, List.foldl_cons, ← nestingAfter, hparen]
  exact (Nesting.scan_deeper (by decide) hopen _).2

/-- A parenthesis stays open over one more character unless it is the innermost
and the character closes it. -/
theorem closingFrom_concat_eq_none {b : Text} {c : Char} :
    closingFrom { depth := 1 } 0 (b ++ [c]) = none ↔
      closingFrom { depth := 1 } 0 b = none ∧
        ((b.foldl Nesting.step { depth := 1 }).step c).depth ≠ 0 := by
  rw [closingFrom_append, Option.or_eq_none_iff]
  refine and_congr_right fun hopen => ?_
  have hinside := Nesting.depth_of_closingFrom_eq_none (by decide) hopen
  rw [closingFrom_eq_none_iff, Nesting.closingFrom_cons_eq_none hinside]
  simp [closingFrom]

theorem OpenAt.count_ne_zero {text : Text} {offset count : Nat}
    (h : OpenAt text offset count) : count ≠ 0 := by
  obtain ⟨a, b, -, -, -, hopen, rfl⟩ := h
  exact Nesting.depth_of_closingFrom_eq_none (by decide) hopen

/-- Behind one more character a parenthesis is open if the character is the
parenthesis, or if the parenthesis was open before and the character does
not close it. -/
theorem openAt_concat {a : Text} {c : Char} {offset count : Nat} :
    OpenAt (a ++ [c]) offset count ↔
      ((nestingAfter a).event c = .opened ∧ offset = width a ∧ count = 1) ∨
        ∃ before, OpenAt a offset before ∧
          ((nestingAfter a).event c).depthAfter before = count ∧ count ≠ 0 := by
  -- What the character does inside an open parenthesis it does in the
  -- whole text.
  have hinside : ∀ {x y : Text}, (nestingAfter x).inString = false →
      closingFrom { depth := 1 } 0 y = none →
      ((y.foldl Nesting.step { depth := 1 }).step c).depth
        = ((nestingAfter (x ++ '(' :: y)).event c).depthAfter
          (y.foldl Nesting.step { depth := 1 }).depth := by
    intro x y hout hopen
    have hdepth := Nesting.depth_of_closingFrom_eq_none (by decide) hopen
    rw [nestingAfter_open hout hopen, Nesting.event_deeper hdepth,
      Nesting.depth_step]
  constructor
  · intro h
    have hcount := h.count_ne_zero
    obtain ⟨x, y, htext, hwidth, hout, hopen, hdepth⟩ := h
    rcases List.eq_nil_or_concat y with rfl | ⟨y, d, rfl⟩
    · obtain ⟨rfl, hc⟩ := List.append_inj' htext rfl
      obtain ⟨rfl, -⟩ := List.cons.inj hc
      exact Or.inl
        ⟨Nesting.event_eq_opened_iff.2 ⟨rfl, hout⟩, hwidth.symm, hdepth.symm⟩
    · rw [List.concat_eq_append] at htext hopen hdepth
      have hsplit : a ++ [c] = (x ++ '(' :: y) ++ [d] := by
        rw [htext, List.append_assoc]; rfl
      obtain ⟨rfl, hc⟩ := List.append_inj' hsplit rfl
      obtain ⟨rfl, -⟩ := List.cons.inj hc
      obtain ⟨hopen, -⟩ := closingFrom_concat_eq_none.1 hopen
      refine Or.inr ⟨_, ⟨x, y, rfl, hwidth, hout, hopen, rfl⟩, ?_, hcount⟩
      rw [← hdepth, List.foldl_append, ← hinside hout hopen]
      rfl
  · rintro (⟨hevent, rfl, rfl⟩
      | ⟨before, ⟨x, y, rfl, hwidth, hout, hopen, rfl⟩, hdepth, hcount⟩)
    · obtain ⟨rfl, hout⟩ := Nesting.event_eq_opened_iff.1 hevent
      exact ⟨a, [], rfl, rfl, hout, rfl, rfl⟩
    · rw [← hinside hout hopen] at hdepth
      refine ⟨x, y ++ [c], by rw [List.append_assoc]; rfl, hwidth, hout, ?_, ?_⟩
      · exact closingFrom_concat_eq_none.2 ⟨hopen, hdepth ▸ hcount⟩
      · rw [List.foldl_append]
        exact hdepth

/-! ## Pairs -/

/-- The search for the partner is a scan inside one parenthesis. -/
theorem matchingParen_append_paren (a b : Text) :
    (a ++ '(' :: b).matchingParen (width a)
      = closingFrom { depth := 1 } (width a + 1) b := by
  rw [matchingParen, after_append_width]
  rfl

/-- An opening parenthesis has no partner iff it is open at the end. -/
theorem matchingParen_eq_none_iff {text : Text} {offset : Nat} :
    (SeenAt text offset '(' ∧ text.matchingParen offset = none) ↔
      ∃ count, OpenAt text offset count := by
  constructor
  · rintro ⟨⟨a, b, rfl, rfl, hout⟩, hnone⟩
    rw [matchingParen_append_paren, closingFrom_eq_none_iff] at hnone
    exact ⟨_, a, b, rfl, rfl, hout, hnone, rfl⟩
  · rintro ⟨count, a, b, rfl, rfl, hout, hopen, -⟩
    refine ⟨⟨a, b, rfl, rfl, hout⟩, ?_⟩
    rw [matchingParen_append_paren, closingFrom_eq_none_iff]
    exact hopen

/-- Two parentheses are partners iff the first is the innermost that is open
before the second. -/
theorem matchingParen_eq_some_iff {text : Text} {offset close : Nat} :
    (SeenAt text offset '(' ∧ text.matchingParen offset = some close) ↔
      ∃ a b, text = a ++ ')' :: b ∧ width a = close ∧
        (nestingAfter a).inString = false ∧ OpenAt a offset 1 := by
  constructor
  · rintro ⟨⟨a, b, rfl, rfl, hout⟩, hclose⟩
    rw [matchingParen_append_paren] at hclose
    obtain ⟨inside, c, rest, rfl, rfl, hopen, hevent, hzero⟩ :=
      closingFrom_eq_some hclose
    have hdepth := Nesting.depth_of_closingFrom_eq_none (by decide) hopen
    obtain ⟨rfl, hinside, -⟩ := Nesting.event_eq_closed_iff.1 hevent
    refine ⟨a ++ '(' :: inside, rest, by simp, ?_, ?_, a, inside, rfl, rfl,
      hout, hopen, ?_⟩
    · rw [width_append, width_cons, ← Nat.add_assoc]
      rfl
    · rw [nestingAfter_open hout hopen]
      exact hinside
    · rw [Nesting.depth_step, hevent] at hzero
      simp only [ParenEvent.depthAfter] at hzero
      omega
  · rintro ⟨-, b, rfl, rfl, hclosing, a, inside, rfl, rfl, hout, hopen, hdepth⟩
    have htext : (a ++ '(' :: inside) ++ ')' :: b
        = a ++ '(' :: (inside ++ ')' :: b) := by simp
    rw [htext]
    refine ⟨⟨a, _, rfl, rfl, hout⟩, ?_⟩
    have hinside : (inside.foldl Nesting.step { depth := 1 }).inString
        = false := by
      rw [nestingAfter_open hout hopen] at hclosing
      exact hclosing
    have hevent : (inside.foldl Nesting.step { depth := 1 }).event ')'
        = .closed :=
      Nesting.event_eq_closed_iff.2 ⟨rfl, hinside, by rw [hdepth]; decide⟩
    have hzero : ((inside.foldl Nesting.step { depth := 1 }).step ')').depth
        = 0 := by
      rw [Nesting.depth_step, hevent, hdepth]
      rfl
    rw [matchingParen_append_paren, closingFrom_append,
      (closingFrom_eq_none_iff _).2 hopen, Option.none_or, closingFrom,
      if_pos ⟨hevent, hzero⟩, width_append, width_cons, ← Nat.add_assoc]
    rfl

end QueryAssist.Text
