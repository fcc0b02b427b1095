import Mathlib.Data.List.Induction
import QueryAssist.Finding.Structure
import QueryAssist.Proofs.Text.ParenScan

/-!
# Parentheses without a partner

The check walks over a text once, with a stack of the parentheses that are open.
The search for the partner of one parenthesis starts anew at that parenthesis.
Both agree: after any first part of the text the stack holds the parentheses
that a search from them has not closed yet, each at its level. So the findings
are those parentheses that have no partner, and the others are pairs.
-/

namespace QueryAssist.Finding

open Text

/-! ## The stack -/

/-- The stack of open parentheses after an event at an offset,
innermost first. -/
def stackAfter (event : ParenEvent) (offset : Nat)
    (opened : List Nat) : List Nat :=
  match event with
  | .opened => offset :: opened
  | .closed => opened.tail
  | .underflow | .other => opened

theorem unclosedParens_cons (state : Nesting) (offset : Nat) (opened : List Nat)
    (c : Char) (cs : Text) :
    unclosedParens state offset opened (c :: cs)
      = unclosedParens (state.step c) (offset + c.utf8Size)
        (stackAfter (state.event c) offset opened) cs := rfl

theorem unclosedParens_concat (state : Nesting) (offset : Nat)
    (opened : List Nat) (a : Text) (c : Char) :
    (unclosedParens state offset opened (a ++ [c])).reverse
      = stackAfter ((a.foldl Nesting.step state).event c) (offset + width a)
        (unclosedParens state offset opened a).reverse := by
  induction a generalizing state offset opened with
  | nil =>
    rw [List.nil_append, unclosedParens_cons, unclosedParens, unclosedParens,
      List.reverse_reverse, List.reverse_reverse]
    rfl
  | cons d ds ih =>
    rw [List.cons_append, unclosedParens_cons, ih, unclosedParens_cons,
      List.foldl_cons, width_cons, Nat.add_assoc]

/-- The parentheses that are open after a text, innermost first. -/
def openParens (text : Text) : List Nat := (unclosedParens {} 0 [] text).reverse

theorem openParens_concat (a : Text) (c : Char) :
    openParens (a ++ [c])
      = stackAfter ((nestingAfter a).event c) (width a) (openParens a) := by
  have hstep := unclosedParens_concat {} 0 [] a c
  rwa [Nat.zero_add] at hstep

/-- There are as many open parentheses as the scan has counted. -/
theorem length_openParens (text : Text) :
    (openParens text).length = (nestingAfter text).depth := by
  induction text using List.reverseRecOn with
  | nil => rfl
  | append_singleton a c ih =>
    rw [openParens_concat, nestingAfter_concat, Nesting.depth_step, ← ih]
    cases (nestingAfter a).event c with
    | opened => rfl
    | closed => exact List.length_tail
    | underflow | other => rfl

/-- The stack holds the open parentheses, each at its level. -/
theorem getElem?_openParens (text : Text) (level offset : Nat) :
    (openParens text)[level]? = some offset ↔
      OpenAt text offset (level + 1) := by
  induction text using List.reverseRecOn generalizing level with
  | nil =>
    constructor
    · intro h
      cases h
    · rintro ⟨a, b, htext, -⟩
      simp at htext
  | append_singleton a c ih =>
    rw [openParens_concat, openAt_concat]
    cases hevent : (nestingAfter a).event c with
    | opened =>
      cases level with
      | zero =>
        constructor
        · intro h
          exact Or.inl ⟨rfl, (Option.some.inj h).symm, rfl⟩
        · rintro (⟨-, rfl, -⟩ | ⟨before, hopen, hlevel, -⟩)
          · rfl
          · exact absurd (Nat.succ.inj hlevel) hopen.count_ne_zero
      | succ level =>
        rw [stackAfter, List.getElem?_cons_succ, ih]
        constructor
        · intro hopen
          exact Or.inr ⟨level + 1, hopen, rfl, by omega⟩
        · rintro (⟨-, -, hlevel⟩ | ⟨before, hopen, hlevel, -⟩)
          · omega
          · rwa [← Nat.succ.inj hlevel]
    | closed =>
      rw [stackAfter, List.getElem?_tail, ih]
      constructor
      · intro hopen
        exact Or.inr ⟨level + 1 + 1, hopen, rfl, by omega⟩
      · rintro (⟨hother, -⟩ | ⟨before, hopen, hlevel, -⟩)
        · cases hother
        · have hbefore : before = level + 1 + 1 := by
            simp only [ParenEvent.depthAfter] at hlevel
            omega
          rwa [← hbefore]
    | underflow | other =>
      rw [stackAfter, ih]
      constructor
      · intro hopen
        exact Or.inr ⟨level + 1, hopen, rfl, by omega⟩
      · rintro (⟨hother, -⟩ | ⟨before, hopen, hlevel, -⟩)
        · cases hother
        · rwa [← hlevel]

/-! ## What is reported -/

theorem mem_unclosedParens_iff {text : Text} {offset : Nat} :
    offset ∈ unclosedParens {} 0 [] text ↔
      SeenAt text offset '(' ∧ text.matchingParen offset = none := by
  rw [matchingParen_eq_none_iff, ← List.mem_reverse, ← openParens,
    List.mem_iff_getElem?]
  constructor
  · rintro ⟨level, hlevel⟩
    exact ⟨level + 1, (getElem?_openParens text level offset).1 hlevel⟩
  · rintro ⟨count, hopen⟩
    obtain ⟨level, rfl⟩ := Nat.exists_eq_succ_of_ne_zero hopen.count_ne_zero
    exact ⟨level, (getElem?_openParens text level offset).2 hopen⟩

theorem mem_unopenedParens {state : Nesting} {offset o : Nat} {text : Text} :
    o ∈ unopenedParens state offset text ↔
      ∃ a b, text = a ++ ')' :: b ∧ offset + width a = o ∧
        (a.foldl Nesting.step state).inString = false ∧
        (a.foldl Nesting.step state).depth = 0 := by
  induction text generalizing state offset with
  | nil => simp [unopenedParens]
  | cons c cs ih =>
    -- The parenthesis is the first character or stands behind it.
    have hsplit : (∃ a b, c :: cs = a ++ ')' :: b ∧ offset + width a = o ∧
          (a.foldl Nesting.step state).inString = false ∧
          (a.foldl Nesting.step state).depth = 0) ↔
        (state.event c = .underflow ∧ offset = o) ∨
          o ∈ unopenedParens (state.step c) (offset + c.utf8Size) cs := by
      rw [ih, Nesting.event_eq_underflow_iff]
      constructor
      · rintro ⟨a, b, htext, hwidth, hout, hdepth⟩
        cases a with
        | nil =>
          obtain ⟨rfl, -⟩ := List.cons.inj htext
          exact Or.inl ⟨⟨rfl, hout, hdepth⟩, hwidth⟩
        | cons d a =>
          obtain ⟨rfl, hcs⟩ := List.cons.inj htext
          rw [width_cons, ← Nat.add_assoc] at hwidth
          exact Or.inr ⟨a, b, hcs, hwidth, hout, hdepth⟩
      · rintro (⟨⟨rfl, hout, hdepth⟩, rfl⟩ | ⟨a, b, rfl, hwidth, hout, hdepth⟩)
        · exact ⟨[], cs, rfl, rfl, hout, hdepth⟩
        · refine ⟨c :: a, b, rfl, ?_, hout, hdepth⟩
          rw [width_cons, ← Nat.add_assoc, hwidth]
    rw [hsplit, unopenedParens]
    split
    · rename_i hevent
      simp [hevent, eq_comm]
    · rename_i hevent
      simp [hevent]

/-- Where a closing parenthesis is seen, none is open before it iff it is the
partner of no other. -/
theorem mem_unopenedParens_iff {text : Text} {offset : Nat} :
    offset ∈ unopenedParens {} 0 text ↔
      SeenAt text offset ')' ∧
        ∀ opening, SeenAt text opening '(' →
          text.matchingParen opening ≠ some offset := by
  rw [mem_unopenedParens]
  constructor
  · rintro ⟨a, b, rfl, rfl, hout, hdepth⟩
    rw [Nat.zero_add]
    refine ⟨⟨a, b, rfl, rfl, hout⟩, fun opening hseen hmatch => ?_⟩
    obtain ⟨a', b', htext, hwidth, -, hopen⟩ :=
      matchingParen_eq_some_iff.1 ⟨hseen, hmatch⟩
    obtain ⟨rfl, -⟩ := append_inj_of_width htext hwidth.symm
    have hfirst := (getElem?_openParens a 0 opening).2 hopen
    have hnone : openParens a = [] :=
      List.eq_nil_of_length_eq_zero (by rw [length_openParens]; exact hdepth)
    rw [hnone] at hfirst
    cases hfirst
  · rintro ⟨⟨a, b, rfl, rfl, hout⟩, hnone⟩
    refine ⟨a, b, rfl, Nat.zero_add _, hout, ?_⟩
    cases hstack : openParens a with
    | nil => rw [← nestingAfter, ← length_openParens, hstack]; rfl
    | cons opening outer =>
      have hopen := (getElem?_openParens a 0 opening).1 (by rw [hstack]; rfl)
      obtain ⟨hseen, hmatch⟩ :=
        matchingParen_eq_some_iff.2 ⟨a, b, rfl, rfl, hout, hopen⟩
      exact absurd hmatch (hnone opening hseen)

/-- Two parentheses do not have the same partner. -/
theorem matchingParen_injective {text : Text} {first second close : Nat}
    (hfirst : SeenAt text first '(') (hsecond : SeenAt text second '(')
    (hclose : text.matchingParen first = some close)
    (hclose' : text.matchingParen second = some close) : first = second := by
  obtain ⟨a, b, htext, hwidth, -, hopen⟩ :=
    matchingParen_eq_some_iff.1 ⟨hfirst, hclose⟩
  obtain ⟨a', b', htext', hwidth', -, hopen'⟩ :=
    matchingParen_eq_some_iff.1 ⟨hsecond, hclose'⟩
  obtain ⟨rfl, -⟩ :=
    append_inj_of_width (htext ▸ htext') (by rw [hwidth, hwidth'])
  have hinnermost := (getElem?_openParens a 0 first).2 hopen
  rw [(getElem?_openParens a 0 second).2 hopen'] at hinnermost
  exact (Option.some.inj hinnermost).symm

/-- An opening parenthesis that is closed has a partner, which is
no stray one. -/
theorem exists_close_of_not_mem_unclosedParens {text : Text} {opening : Nat}
    (hseen : SeenAt text opening '(')
    (h : opening ∉ unclosedParens {} 0 [] text) :
    ∃ close, text.matchingParen opening = some close ∧ SeenAt text close ')' ∧
      close ∉ unopenedParens {} 0 text := by
  cases hmatch : text.matchingParen opening with
  | none => exact absurd (mem_unclosedParens_iff.2 ⟨hseen, hmatch⟩) h
  | some close =>
    obtain ⟨a, b, htext, hwidth, hout, -⟩ :=
      matchingParen_eq_some_iff.1 ⟨hseen, hmatch⟩
    refine ⟨close, rfl, ⟨a, b, htext, hwidth, hout⟩, ?_⟩
    intro hstray
    exact (mem_unopenedParens_iff.1 hstray).2 opening hseen hmatch

/-- A closing parenthesis that is no stray one has exactly one partner. -/
theorem exists_opening_of_not_mem_unopenedParens {text : Text} {close : Nat}
    (hseen : SeenAt text close ')') (h : close ∉ unopenedParens {} 0 text) :
    ∃ opening, SeenAt text opening '(' ∧
      text.matchingParen opening = some close ∧
      ∀ other, SeenAt text other '(' → text.matchingParen other = some close →
        other = opening := by
  have hpartner : ∃ opening,
      SeenAt text opening '(' ∧ text.matchingParen opening = some close := by
    by_contra hnone
    refine h (mem_unopenedParens_iff.2 ⟨hseen, ?_⟩)
    intro opening hopening hmatch
    exact hnone ⟨opening, hopening, hmatch⟩
  obtain ⟨opening, hopening, hmatch⟩ := hpartner
  refine ⟨opening, hopening, hmatch, ?_⟩
  intro other hother hmatch'
  exact matchingParen_injective hother hopening hmatch' hmatch

/-! ## Order -/

theorem le_of_mem_unopenedParens {state : Nesting} {offset : Nat} {text : Text}
    {o : Nat} (h : o ∈ unopenedParens state offset text) : offset ≤ o := by
  obtain ⟨a, -, -, rfl, -⟩ := mem_unopenedParens.1 h
  exact Nat.le_add_right _ _

theorem unopenedParens_sorted (state : Nesting) (offset : Nat) (text : Text) :
    (unopenedParens state offset text).Pairwise (· < ·) := by
  induction text generalizing state offset with
  | nil => exact List.Pairwise.nil
  | cons c cs ih =>
    rw [unopenedParens]
    split
    · refine List.pairwise_cons.2 ⟨?_, ih _ _⟩
      intro o ho
      have hle := le_of_mem_unopenedParens ho
      have hsize := c.utf8Size_pos
      omega
    · exact ih _ _

/-- The open parentheses are kept in order, innermost first. -/
theorem unclosedParens_sorted {offset : Nat} {opened : List Nat}
    (horder : opened.Pairwise (· > ·)) (hbefore : ∀ o ∈ opened, o < offset)
    (state : Nesting) (text : Text) :
    (unclosedParens state offset opened text).Pairwise (· < ·) := by
  induction text generalizing state offset opened with
  | nil => exact List.pairwise_reverse.2 horder
  | cons c cs ih =>
    have hsize := c.utf8Size_pos
    have hlater : ∀ o ∈ opened, o < offset + c.utf8Size :=
      fun o ho => Nat.lt_add_right _ (hbefore o ho)
    rw [unclosedParens_cons]
    cases state.event c with
    | opened =>
      refine ih (List.pairwise_cons.2 ⟨hbefore, horder⟩) ?_ _
      intro o ho
      rcases List.mem_cons.1 ho with rfl | ho
      · omega
      · exact hlater o ho
    | closed =>
      exact ih (horder.sublist (List.tail_sublist opened))
        (fun o ho => hlater o (List.mem_of_mem_tail ho)) _
    | underflow | other => exact ih horder hlater _

/-! ## Findings -/

/-- Where the findings of a problem start, in the order of the findings. -/
def reportedAt (problem : Problem) (findings : List Finding) : List Nat :=
  (findings.filter (·.problem == problem)).map (·.span.offset)

theorem reportedAt_map_locate (text : Text) (problem other : Problem)
    (offsets : List Nat) :
    reportedAt problem (offsets.map (locate text · 1 other))
      = if other = problem then offsets else [] := by
  induction offsets with
  | nil => simp [reportedAt]
  | cons o os ih =>
    rw [reportedAt] at ih ⊢
    rw [List.map_cons, List.filter_cons]
    split
    · rename_i hsame
      have hproblem : other = problem := eq_of_beq hsame
      rw [List.map_cons, ih, if_pos hproblem, if_pos hproblem]
      rfl
    · rename_i hother
      have hproblem : ¬ other = problem := fun heq => hother (beq_iff_eq.2 heq)
      rw [ih, if_neg hproblem, if_neg hproblem]

theorem reportedAt_unbalancedParens (text clean : Text) (problem : Problem) :
    reportedAt problem (unbalancedParens text clean)
      = (if Problem.unopenedParen = problem then unopenedParens {} 0 clean
          else [])
        ++ (if Problem.unclosedParen = problem then unclosedParens {} 0 [] clean
          else []) := by
  rw [← reportedAt_map_locate text, ← reportedAt_map_locate text,
    unbalancedParens]
  simp only [reportedAt, List.filter_append, List.map_append]

/-- Each kind is reported in the order of the text. -/
theorem reportedAt_unbalancedParens_sorted (text clean : Text)
    (problem : Problem) :
    (reportedAt problem (unbalancedParens text clean)).Pairwise (· < ·) := by
  rw [reportedAt_unbalancedParens]
  by_cases hkind : Problem.unopenedParen = problem
  · subst hkind
    simpa using unopenedParens_sorted {} 0 clean
  · rw [if_neg hkind, List.nil_append]
    split
    · exact unclosedParens_sorted List.Pairwise.nil (by simp) {} clean
    · exact List.Pairwise.nil

theorem problem_of_mem_unbalancedParens {text clean : Text} {f : Finding}
    (h : f ∈ unbalancedParens text clean) :
    f.problem = .unopenedParen ∨ f.problem = .unclosedParen := by
  rcases List.mem_append.1 h with h | h
  · obtain ⟨o, -, rfl⟩ := List.mem_map.1 h
    exact Or.inl rfl
  · obtain ⟨o, -, rfl⟩ := List.mem_map.1 h
    exact Or.inr rfl

/-- No place is reported twice: a stray parenthesis closes and an
unclosed one opens. -/
theorem offsets_unbalancedParens_nodup (text clean : Text) :
    ((unbalancedParens text clean).map (·.span.offset)).Nodup := by
  have hoffsets : (unbalancedParens text clean).map (·.span.offset)
      = unopenedParens {} 0 clean ++ unclosedParens {} 0 [] clean := by
    simp [unbalancedParens, locate, Function.comp_def, Span.locate_offset]
  have hopeners : (unclosedParens {} 0 [] clean).Pairwise (· < ·) :=
    unclosedParens_sorted List.Pairwise.nil (by simp) {} clean
  rw [hoffsets, List.nodup_append]
  refine ⟨(unopenedParens_sorted {} 0 clean).imp Nat.ne_of_lt,
    hopeners.imp Nat.ne_of_lt, ?_⟩
  rintro o hcloser _ hopener rfl
  have hclose := (mem_unopenedParens_iff.1 hcloser).1.hasAt
  have hopen := (mem_unclosedParens_iff.1 hopener).1.hasAt
  exact absurd (hclose.unique hopen) (by decide)

/-- A parenthesis is reported iff it has no partner: an opening one if the
search for the one that closes it fails, a closing one if no search leads to it.
The others are pairs. Every parenthesis is reported once, and each kind in the
order of the text. -/
theorem paren_findings_are_exact (text : Text) :
    let clean := text.sanitize
    let findings := unbalancedParens text clean
    (∀ i, i ∈ reportedAt .unclosedParen findings ↔
        SeenAt clean i '(' ∧ clean.matchingParen i = none) ∧
      (∀ i, i ∈ reportedAt .unopenedParen findings ↔
        SeenAt clean i ')' ∧
          ∀ k, SeenAt clean k '(' → clean.matchingParen k ≠ some i) ∧
      (∀ k, SeenAt clean k '(' → k ∉ reportedAt .unclosedParen findings →
        ∃ i, clean.matchingParen k = some i ∧ SeenAt clean i ')' ∧
          i ∉ reportedAt .unopenedParen findings) ∧
      (∀ i, SeenAt clean i ')' → i ∉ reportedAt .unopenedParen findings →
        ∃ k, SeenAt clean k '(' ∧ clean.matchingParen k = some i ∧
          ∀ k',
            SeenAt clean k' '(' → clean.matchingParen k' = some i → k' = k) ∧
      (∀ f ∈ findings,
        f.problem = .unopenedParen ∨ f.problem = .unclosedParen) ∧
      (findings.map (·.span.offset)).Nodup ∧
      ∀ problem, (reportedAt problem findings).Pairwise (· < ·) := by
  intro clean findings
  have hunclosed : reportedAt .unclosedParen findings
      = unclosedParens {} 0 [] clean := by
    simp [findings, reportedAt_unbalancedParens]
  have hunopened : reportedAt .unopenedParen findings
      = unopenedParens {} 0 clean := by
    simp [findings, reportedAt_unbalancedParens]
  rw [hunclosed, hunopened]
  exact ⟨fun i => mem_unclosedParens_iff, fun i => mem_unopenedParens_iff,
    fun k => exists_close_of_not_mem_unclosedParens,
    fun i => exists_opening_of_not_mem_unopenedParens,
    fun f => problem_of_mem_unbalancedParens,
    offsets_unbalancedParens_nodup text clean,
    reportedAt_unbalancedParens_sorted text clean⟩

/-- A closing parenthesis that closes nothing, an opening one that is never
closed, a pair inside it, and one in a literal. -/
def strandedParens : Text := ") SELECT (a, (b), '('".toList

theorem paren_findings_are_exact_strandedParens :
    let clean := strandedParens.sanitize
    let findings := unbalancedParens strandedParens clean
    0 ∈ reportedAt .unopenedParen findings ∧ SeenAt clean 0 ')' ∧
      9 ∈ reportedAt .unclosedParen findings ∧ clean.matchingParen 9 = none ∧
      SeenAt clean 13 '(' ∧
      ∃ i, clean.matchingParen 13 = some i ∧ SeenAt clean i ')' ∧
        i ∉ reportedAt .unopenedParen findings := by
  intro clean findings
  obtain ⟨hunclosed, hunopened, hpairs, -⟩ :=
    paren_findings_are_exact strandedParens
  have hcloser : 0 ∈ reportedAt .unopenedParen findings := by decide +kernel
  have hopener : 9 ∈ reportedAt .unclosedParen findings := by decide +kernel
  have hpaired : 13 ∉ reportedAt .unclosedParen findings := by decide +kernel
  have hseen : SeenAt clean 13 '(' :=
    ⟨clean.upTo 13, (clean.after 13).tail, by decide +kernel, by decide +kernel,
      by decide +kernel⟩
  exact ⟨hcloser, ((hunopened 0).1 hcloser).1, hopener,
    ((hunclosed 9).1 hopener).2, hseen, hpairs 13 hseen hpaired⟩

end QueryAssist.Finding
