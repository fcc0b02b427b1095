import QueryAssist.Finding.Reference
import QueryAssist.Hover
import QueryAssist.Proofs.Query.TableParts

/-!
# The qualifier of a column

A column with a qualifier is read in two ways. The check of a document walks
over all tokens and goes from the first name of a dotted run straight to the end
of the run. A hover starts at one name and goes back over the dots and names in
front of it. A dotted run is one from either end, and one that is part of no
other has a single start and a single stop. So the check reads exactly the runs
that are part of no other and do not start behind a dot, and a hover over the
last name of such a run reads the same names in front of it.
-/

namespace QueryAssist

/-! ## Paths -/

/-- Names with a dot between each two of them. -/
inductive IsPath : List Token → Prop
  | name {t : Token} (ht : t.isName = true) : IsPath [t]
  | dotted {t dot : Token} {rest : List Token} (ht : t.isName = true)
      (hdot : dot.kind = .dot) (hrest : IsPath rest) : IsPath (t :: dot :: rest)

namespace IsPath

variable {path : List Token}

theorem snoc (h : IsPath path) {dot t : Token} (hdot : dot.kind = .dot)
    (ht : t.isName = true) : IsPath (path ++ [dot, t]) := by
  induction h with
  | name hfirst => exact .dotted hfirst hdot (.name ht)
  | dotted hfirst hnext _ ih => exact .dotted hfirst hnext ih

/-- A path is one from either end. -/
theorem reverse (h : IsPath path) : IsPath path.reverse := by
  induction h with
  | name ht => exact .name ht
  | dotted ht hdot _ ih =>
    rw [List.reverse_cons, List.reverse_cons, List.append_assoc]
    exact ih.snoc hdot ht

theorem isName_head {t : Token} {ts : List Token}
    (h : IsPath (t :: ts)) : t.isName = true := by
  cases h with
  | name ht => exact ht
  | dotted ht _ _ => exact ht

/-- A path of two or more names ends with a dot and a name. -/
theorem exists_last (h : IsPath path) (hlong : 1 < path.length) :
    ∃ front dot column, path = front ++ [dot, column] ∧ dot.kind = .dot ∧
      column.isName = true := by
  generalize hback : path.reverse = back
  have hpath : path = back.reverse := by rw [← hback, List.reverse_reverse]
  have hreverse := h.reverse
  rw [hback] at hreverse
  cases hreverse with
  | name => simp [hpath] at hlong
  | @dotted column dot rest hcolumn hdot _ =>
    exact ⟨rest.reverse, dot, column, by simp [hpath], hdot, hcolumn⟩

/-- What stands in front of a name of a path is a dot. -/
theorem dot_before {front back : List Token} {t : Token}
    (h : IsPath (front ++ t :: back)) (ht : t.isName = true)
    (hfront : front ≠ []) :
    ∃ dot, front.getLast? = some dot ∧ dot.kind = .dot := by
  generalize hpath : front ++ t :: back = path at h
  induction h generalizing front with
  | name => cases front <;> simp_all
  | @dotted first dot rest hfirst hdot hrest ih =>
    match front with
    | [] => exact absurd rfl hfront
    | [_] =>
      obtain ⟨-, rfl, -⟩ : _ ∧ t = dot ∧ back = rest := by simpa using hpath
      simp [Token.isName, hdot] at ht
    | _ :: u :: [] =>
      obtain ⟨-, rfl, -⟩ : _ ∧ u = dot ∧ t :: back = rest := by
        simpa using hpath
      exact ⟨u, rfl, hdot⟩
    | _ :: _ :: u :: us =>
      obtain ⟨-, -, hlater⟩ : _ ∧ _ ∧ (u :: us) ++ t :: back = rest := by
        simpa using hpath
      obtain ⟨before, hlast, hbefore⟩ := ih (List.cons_ne_nil u us) hlater
      exact ⟨before,
        by rw [List.getLast?_cons_cons, List.getLast?_cons_cons, hlast],
        hbefore⟩

end IsPath

/-- A name and what continues its path are a path. -/
theorem isPath_take_pathTail {t : Token} (ht : t.isName = true)
    (ts : List Token) : IsPath (t :: ts.take (pathTail ts)) := by
  induction ts using pathTail.induct generalizing t with
  | case1 dot next rest h ih =>
    rw [pathTail, if_pos h, List.take_succ_cons, List.take_succ_cons]
    simp only [Bool.and_eq_true, beq_iff_eq] at h
    exact .dotted ht h.1 (ih h.2)
  | case2 dot next rest h =>
    rw [pathTail, if_neg h]
    exact .name ht
  | case3 ts h =>
    cases ts with
    | nil => exact .name ht
    | cons dot rest =>
      cases rest with
      | nil => exact .name ht
      | cons next rest => exact absurd rfl (h dot next rest)

/-- No longer path starts with the name. -/
theorem le_pathTail {t : Token} {ts : List Token} {n : Nat}
    (h : IsPath (t :: ts.take n)) (hn : n ≤ ts.length) : n ≤ pathTail ts := by
  generalize hpath : t :: ts.take n = path at h
  induction h generalizing t ts n with
  | name => cases n <;> cases ts <;> simp_all
  | @dotted first dot rest hfirst hdot hrest ih =>
    match n, ts with
    | 0, _ => exact Nat.zero_le _
    | 1, _ :: _ =>
      cases hrest <;> simp at hpath
    | n + 2, [_] => simp at hn
    | n + 2, u :: next :: rest' =>
      obtain ⟨-, rfl, rfl⟩ : _ ∧ u = dot ∧ next :: rest'.take n = rest := by
        simpa using hpath
      have hnext : u.kind == .dot && next.isName := by
        simp [hdot, hrest.isName_head]
      have hlater := ih (by simpa using hn) rfl
      rw [pathTail, if_pos hnext]
      omega

namespace ReferenceCheck

/-! ## Dotted runs -/

/-- The tokens from a start up to a stop are a path of two or more names. -/
structure IsRun (tokens : List Token) (start stop : Nat) : Prop where
  stop_le : stop ≤ tokens.length
  two_names : start + 1 < stop
  path : IsPath (tokens.extract start stop)

/-- A run that is part of no other. -/
structure IsMaximalRun (tokens : List Token) (start stop : Nat) :
    Prop extends IsRun tokens start stop where
  maximal : ∀ {start' stop'}, IsRun tokens start' stop' → start' ≤ start →
    stop ≤ stop' → start' = start ∧ stop' = stop

/-- Whether the token in front of a position is a dot. -/
def behindDot (tokens : List Token) (i : Nat) : Bool :=
  (tokens.take i).getLast?.any (·.kind == .dot)

section

variable {tokens : List Token} {start stop i : Nat} {t : Token}
  {ts : List Token}

theorem extract_of_drop (h : tokens.drop i = t :: ts) (n : Nat) :
    tokens.extract i (i + 1 + n) = t :: ts.take n := by
  rw [List.extract_eq_take_drop, h, show i + 1 + n - i = n + 1 by omega,
    List.take_succ_cons]

theorem extract_reverse (hle : start ≤ stop) (hstop : stop ≤ tokens.length) :
    tokens.reverse.extract (tokens.length - stop) (tokens.length - start)
      = (tokens.extract start stop).reverse := by
  have hfront : tokens.reverse.drop (tokens.length - stop)
      = (tokens.take stop).reverse := by
    rw [List.drop_reverse,
      show tokens.length - (tokens.length - stop) = stop by omega]
  rw [List.extract_eq_take_drop, hfront, List.take_reverse, List.length_take,
    Nat.min_eq_left hstop,
    show stop - (tokens.length - start - (tokens.length - stop))
        = start by omega, List.drop_take, List.extract_eq_take_drop]

namespace IsRun

theorem reverse (h : IsRun tokens start stop) :
    IsRun tokens.reverse (tokens.length - stop) (tokens.length - start) := by
  obtain ⟨hstop, htwo, hpath⟩ := h
  refine ⟨by simp, by omega, ?_⟩
  rw [extract_reverse (by omega) hstop]
  exact hpath.reverse

theorem path_of_drop (h : IsRun tokens start stop)
    (hdrop : tokens.drop start = t :: ts) :
    IsPath (t :: ts.take (stop - start - 1)) := by
  have := h.two_names
  rw [← extract_of_drop hdrop,
    show start + 1 + (stop - start - 1) = stop by omega]
  exact h.path

theorem exists_first (h : IsRun tokens start stop) :
    ∃ t ts, tokens.drop start = t :: ts ∧ t.isName = true := by
  have := h.stop_le
  have := h.two_names
  have hdrop := List.drop_eq_getElem_cons (show start < tokens.length by omega)
  exact ⟨_, _, hdrop, (h.path_of_drop hdrop).isName_head⟩

/-- Inside a run a name stands behind a dot. -/
theorem behindDot_inside (h : IsRun tokens start stop) (hstart : start < i)
    (hstop : i < stop) (hdrop : tokens.drop i = t :: ts)
    (ht : t.isName = true) : behindDot tokens i = true := by
  have hle := h.stop_le
  have hsplit : tokens.extract start stop
      = tokens.extract start i ++ t :: ts.take (stop - i - 1) := by
    rw [← extract_of_drop hdrop, show i + 1 + (stop - i - 1) = stop by omega,
      List.extract_eq_take_drop, List.extract_eq_take_drop,
      List.extract_eq_take_drop,
      show stop - start = (i - start) + (stop - i) by omega, List.take_add,
      List.drop_drop, show start + (i - start) = i by omega]
  have hfront : tokens.extract start i = (tokens.take i).drop start := by
    rw [List.extract_eq_take_drop, List.drop_take]
  have hshort : ¬ (tokens.take i).length ≤ start := by
    rw [List.length_take]
    omega
  have hpath := h.path
  rw [hsplit, hfront] at hpath
  obtain ⟨dot, hlast, hdot⟩ :=
    hpath.dot_before ht (mt List.drop_eq_nil_iff.1 hshort)
  rw [List.getLast?_drop, if_neg hshort] at hlast
  simp [behindDot, hlast, hdot]

end IsRun

/-- A name and what continues its path are a run. -/
theorem isRun_of_name (hdrop : tokens.drop i = t :: ts) (ht : t.isName = true)
    (hmore : pathTail ts ≠ 0) : IsRun tokens i (i + 1 + pathTail ts) := by
  have hlength := congrArg List.length hdrop
  rw [List.length_drop, List.length_cons] at hlength
  have htail := pathTail_le ts
  refine ⟨by omega, by omega, ?_⟩
  rw [extract_of_drop hdrop]
  exact isPath_take_pathTail ht ts

/-- No longer run starts with the name. -/
theorem IsRun.stop_le_pathTail (h : IsRun tokens start stop)
    (hdrop : tokens.drop start = t :: ts) : stop ≤ start + 1 + pathTail ts := by
  have hlength := congrArg List.length hdrop
  rw [List.length_drop, List.length_cons] at hlength
  have hstop := h.stop_le
  have hle := le_pathTail (h.path_of_drop hdrop) (by omega)
  omega

namespace IsMaximalRun

/-- A run that is part of no other is so from either end. -/
theorem reverse (h : IsMaximalRun tokens start stop) :
    IsMaximalRun tokens.reverse (tokens.length - stop)
      (tokens.length - start) := by
  refine ⟨h.toIsRun.reverse, fun {start' stop'} hwider hstart hstop => ?_⟩
  have hfits : stop' ≤ tokens.length := by simpa using hwider.stop_le
  have hback : IsRun tokens (tokens.length - stop')
      (tokens.length - start') := by simpa using hwider.reverse
  have hle := h.stop_le
  have htwo := h.two_names
  obtain ⟨hsame, hsame'⟩ := h.maximal hback (by omega) (by omega)
  omega

/-- From its first name a run that is part of no other is continued up
to its stop. -/
theorem pathTail_eq (h : IsMaximalRun tokens start stop)
    (hdrop : tokens.drop start = t :: ts) : start + 1 + pathTail ts = stop := by
  have htwo := h.two_names
  have hle := h.stop_le_pathTail hdrop
  have hwider :=
    isRun_of_name hdrop (h.path_of_drop hdrop).isName_head (by omega)
  exact (h.maximal hwider (Nat.le_refl _) hle).2

/-- Runs that do not start behind a dot lie apart. -/
theorem stop_le_start {later laterStop : Nat}
    (h : IsMaximalRun tokens start stop)
    (hlater : IsMaximalRun tokens later laterStop)
    (hdot : behindDot tokens later = false)
    (hlt : start < later) : stop ≤ later := by
  refine Nat.le_of_not_lt fun hinside => ?_
  obtain ⟨t, ts, hdrop, ht⟩ := hlater.exists_first
  rw [h.behindDot_inside hlt hinside hdrop ht] at hdot
  cases hdot

end IsMaximalRun

/-- A name that does not stand behind a dot starts a run that is part of no
other, if it starts one. -/
theorem isMaximalRun_of_name (hdrop : tokens.drop i = t :: ts)
    (ht : t.isName = true) (hdot : behindDot tokens i = false)
    (hmore : pathTail ts ≠ 0) :
    IsMaximalRun tokens i (i + 1 + pathTail ts) := by
  refine ⟨isRun_of_name hdrop ht hmore,
    fun {start' stop'} hwider hstart hstop => ?_⟩
  -- a run around this one cannot start before it: the name would stand inside
  -- that run, and so behind a dot
  rcases Nat.eq_or_lt_of_le hstart with rfl | hlt
  · exact ⟨rfl, Nat.le_antisymm (hwider.stop_le_pathTail hdrop) hstop⟩
  · rw [hwider.behindDot_inside hlt (by omega) hdrop ht] at hdot
    cases hdot

end

/-! ## Walking over the tokens -/

/-- Where the run stops that starts at a position, if one does. -/
def runStop? (tokens : List Token) (i : Nat) : Option Nat :=
  match tokens.drop i with
  | [] => none
  | t :: ts =>
    if t.isName && !behindDot tokens i && pathTail ts != 0 then
      some (i + 1 + pathTail ts)
    else none

theorem runStop?_of_drop {tokens : List Token} {i : Nat} {t : Token}
    {ts : List Token} (hdrop : tokens.drop i = t :: ts) :
    runStop? tokens i
      = if t.isName && !behindDot tokens i && pathTail ts != 0 then
          some (i + 1 + pathTail ts)
        else none := by
  rw [runStop?, hdrop]

theorem runStop?_eq_some_iff {tokens : List Token} {i stop : Nat} :
    runStop? tokens i = some stop ↔
      IsMaximalRun tokens i stop ∧ behindDot tokens i = false := by
  constructor
  · intro h
    cases hdrop : tokens.drop i with
    | nil => simp [runStop?, hdrop] at h
    | cons t ts =>
      rw [runStop?_of_drop hdrop, Option.ite_none_right_eq_some,
        Option.some.injEq] at h
      obtain ⟨hstarts, rfl⟩ := h
      simp only [Bool.and_eq_true, Bool.not_eq_true', bne_iff_ne] at hstarts
      exact ⟨isMaximalRun_of_name hdrop hstarts.1.1 hstarts.1.2 hstarts.2,
        hstarts.1.2⟩
  · rintro ⟨h, hdot⟩
    obtain ⟨t, ts, hdrop, ht⟩ := h.exists_first
    have hstop := h.pathTail_eq hdrop
    have htwo := h.two_names
    have hmore : pathTail ts ≠ 0 := by omega
    rw [runStop?_of_drop hdrop]
    simp [ht, hdot, hmore, hstop]

/-- A walk over the tokens from a position to their end reads these runs, each
given by its start and stop: from where a run starts it goes on where the run
stops, and from any other position it goes on to the next. -/
inductive Walk (tokens : List Token) : Nat → List (Nat × Nat) → Prop
  | done {i : Nat} (hend : tokens.length ≤ i) : Walk tokens i []
  | pass {i : Nat} {spans : List (Nat × Nat)} (hi : i < tokens.length)
      (hrun : runStop? tokens i = none) (hrest : Walk tokens (i + 1) spans) :
      Walk tokens i spans
  | visit {i stop : Nat} {spans : List (Nat × Nat)} (hi : i < tokens.length)
      (hrun : runStop? tokens i = some stop) (hrest : Walk tokens stop spans) :
      Walk tokens i ((i, stop) :: spans)

/-- Every walk comes to the end of the tokens. -/
theorem exists_walk (tokens : List Token) (i : Nat) :
    ∃ spans, Walk tokens i spans := by
  by_cases hi : i < tokens.length
  · cases hrun : runStop? tokens i with
    | none =>
      obtain ⟨spans, hrest⟩ := exists_walk tokens (i + 1)
      exact ⟨spans, .pass hi hrun hrest⟩
    | some stop =>
      have hforward : i + 1 < stop := (runStop?_eq_some_iff.1 hrun).1.two_names
      obtain ⟨spans, hrest⟩ := exists_walk tokens stop
      exact ⟨(i, stop) :: spans, .visit hi hrun hrest⟩
  · exact ⟨[], .done (Nat.le_of_not_lt hi)⟩
termination_by tokens.length - i

namespace Walk

variable {tokens : List Token} {i : Nat} {spans : List (Nat × Nat)}

/-- A walk reads the runs that start where it is or later. -/
theorem mem_iff (h : Walk tokens i spans) (start stop : Nat) :
    (start, stop) ∈ spans ↔
      (IsMaximalRun tokens start stop ∧ behindDot tokens start = false) ∧
        i ≤ start := by
  induction h with
  | done hend =>
    simp only [List.not_mem_nil, false_iff, not_and]
    rintro ⟨hrun, -⟩
    have := hrun.stop_le
    have := hrun.two_names
    omega
  | @pass i spans hi hnone _ ih =>
    rw [ih]
    refine and_congr_right fun hrun =>
      ⟨Nat.le_of_succ_le, fun hle => Nat.lt_of_le_of_ne hle ?_⟩
    rintro rfl
    rw [runStop?_eq_some_iff.2 hrun] at hnone
    cases hnone
  | @visit i next spans hi hsome _ ih =>
    have hhere := runStop?_eq_some_iff.1 hsome
    have htwo := hhere.1.two_names
    rw [List.mem_cons, ih, Prod.mk.injEq]
    constructor
    · rintro (⟨rfl, rfl⟩ | ⟨hrun, hle⟩)
      · exact ⟨hhere, Nat.le_refl _⟩
      · exact ⟨hrun, by omega⟩
    · rintro ⟨hrun, hle⟩
      rcases Nat.eq_or_lt_of_le hle with rfl | hlt
      · rw [runStop?_eq_some_iff.2 hrun, Option.some.injEq] at hsome
        exact .inl ⟨rfl, hsome⟩
      · exact .inr ⟨hrun, hhere.1.stop_le_start hrun.1 hrun.2 hlt⟩

/-- Each run stops before the next one starts. -/
theorem ordered (h : Walk tokens i spans) :
    spans.Pairwise fun a b => a.2 ≤ b.1 := by
  induction h with
  | done => exact .nil
  | pass _ _ _ ih => exact ih
  | visit _ _ hrest ih =>
    exact .cons (fun _ hspan => ((hrest.mem_iff _ _).1 hspan).2) ih

end Walk

/-! ## The runs that are checked -/

/-- The run from a start up to a stop, with the token behind it. -/
def QualifiedRun.ofSpan (tokens : List Token)
    (start stop : Nat) : QualifiedRun :=
  { segments := tokens.extract start stop, following := tokens[stop]? }

/-- The runs that are read from a position on. -/
def runsFrom (tokens : List Token) (i : Nat) : List QualifiedRun :=
  qualifiedRuns 0 (tokens.take i).getLast? (tokens.drop i)

section

variable {tokens : List Token} {i : Nat}

theorem drop_succ_of_drop {t : Token} {ts : List Token}
    (h : tokens.drop i = t :: ts) : tokens.drop (i + 1) = ts := by
  rw [← List.drop_drop, h, List.drop_one, List.tail_cons]

theorem getLast?_take_of_drop {t : Token} {ts : List Token}
    (h : tokens.drop i = t :: ts) :
    (tokens.take (i + 1)).getLast? = some t := by
  rw [List.take_add_one, ← List.head?_drop, h, List.head?_cons,
    Option.toList_some, List.getLast?_concat]

/-- To pass over tokens is to read from a later position. -/
theorem qualifiedRuns_skip (tokens : List Token) (n i : Nat) :
    qualifiedRuns n (tokens.take i).getLast? (tokens.drop i)
      = runsFrom tokens (i + n) := by
  induction n generalizing i with
  | zero => rfl
  | succ n ih =>
    cases hdrop : tokens.drop i with
    | nil =>
      have hend : tokens.drop (i + (n + 1)) = [] := by
        rw [← List.drop_drop, hdrop, List.drop_nil]
      rw [runsFrom, hend, qualifiedRuns, qualifiedRuns]
    | cons t ts =>
      rw [qualifiedRuns, ← getLast?_take_of_drop hdrop,
        ← drop_succ_of_drop hdrop, ih, Nat.add_right_comm i 1 n, Nat.add_assoc]

theorem runsFrom_end (hend : tokens.length ≤ i) : runsFrom tokens i = [] := by
  rw [runsFrom, List.drop_eq_nil_iff.2 hend, qualifiedRuns]

/-- One step of the check: over a whole run where one starts, else
over one token. -/
theorem runsFrom_of_drop {t : Token} {ts : List Token}
    (hdrop : tokens.drop i = t :: ts) :
    runsFrom tokens i
      = if t.isName && !behindDot tokens i && pathTail ts != 0 then
          .ofSpan tokens i (i + 1 + pathTail ts)
            :: runsFrom tokens (i + 1 + pathTail ts)
        else runsFrom tokens (i + 1) := by
  have hskip : ∀ n,
      qualifiedRuns n (some t) ts = runsFrom tokens (i + 1 + n) := by
    intro n
    rw [← qualifiedRuns_skip, getLast?_take_of_drop hdrop,
      drop_succ_of_drop hdrop]
  have hfollowing : (ts.drop (pathTail ts)).head?
      = tokens[i + 1 + pathTail ts]? := by
    rw [← drop_succ_of_drop hdrop, List.drop_drop, List.head?_drop]
  rw [runsFrom, hdrop, qualifiedRuns, hskip, hskip, hfollowing,
    QualifiedRun.ofSpan, extract_of_drop hdrop]
  rfl

theorem runsFrom_pass (hi : i < tokens.length)
    (hrun : runStop? tokens i = none) :
    runsFrom tokens i = runsFrom tokens (i + 1) := by
  have hdrop := List.drop_eq_getElem_cons hi
  rw [runStop?_of_drop hdrop, ite_eq_right_iff] at hrun
  rw [runsFrom_of_drop hdrop, if_neg fun hstarts => nomatch hrun hstarts]

theorem runsFrom_visit (hi : i < tokens.length) {stop : Nat}
    (hrun : runStop? tokens i = some stop) :
    runsFrom tokens i = .ofSpan tokens i stop :: runsFrom tokens stop := by
  have hdrop := List.drop_eq_getElem_cons hi
  rw [runStop?_of_drop hdrop, Option.ite_none_right_eq_some,
    Option.some.injEq] at hrun
  obtain ⟨hstarts, rfl⟩ := hrun
  rw [runsFrom_of_drop hdrop, if_pos hstarts]

/-- What the check reads from a position on are the runs of the walk. -/
theorem Walk.runsFrom_eq {spans : List (Nat × Nat)} (h : Walk tokens i spans) :
    runsFrom tokens i
      = spans.map fun span => QualifiedRun.ofSpan tokens span.1 span.2 := by
  induction h with
  | done hend => exact runsFrom_end hend
  | pass hi hrun _ ih => rw [runsFrom_pass hi hrun, ih]
  | visit hi hrun _ ih => rw [runsFrom_visit hi hrun, ih, List.map_cons]

end

end ReferenceCheck

/-! ## The name under a cursor -/

namespace Focus

/-- The token at an index, with the tokens around it. -/
def ofIndex? (tokens : List Token) (i : Nat) : Option Focus :=
  tokens[i]?.map fun t =>
    { before := (tokens.take i).reverse, token := t,
      following := tokens.drop (i + 1) }

/-- The index of the name that contains an offset, or else of the one that
ends there. -/
def wordIndex? (tokens : List Token) (offset : Nat) : Option Nat :=
  tokens.findIdx? (fun t => t.isName && t.start ≤ offset && offset < t.stop)
    <|> tokens.findIdx? (fun t => t.isName && t.stop == offset)

theorem ofIndex?_append (before : List Token) (t : Token) (ts : List Token) :
    ofIndex? (before.reverse ++ t :: ts) before.length
      = some ⟨before, t, ts⟩ := by
  simp [ofIndex?, List.drop_append]

theorem find?_eq_bind (p : Token → Bool) (before tokens : List Token) :
    Focus.find? p before tokens
      = (tokens.findIdx? p).bind fun i =>
        ofIndex? (before.reverse ++ tokens) (before.length + i) := by
  induction tokens generalizing before with
  | nil => rfl
  | cons t ts ih =>
    rw [Focus.find?, List.findIdx?_cons]
    split
    · exact (ofIndex?_append before t ts).symm
    · rw [ih, Option.bind_map]
      congr 1
      funext i
      simp [Nat.add_comm, Nat.add_left_comm]

/-- A hover is about the token at the index of its name. -/
theorem atOffset?_eq_bind (tokens : List Token) (offset : Nat) :
    Focus.atOffset? tokens offset
      = (wordIndex? tokens offset).bind (ofIndex? tokens) := by
  have hfind : ∀ p : Token → Bool,
      Focus.find? p [] tokens = (tokens.findIdx? p).bind (ofIndex? tokens) := by
    intro p
    rw [find?_eq_bind]
    simp
  rw [Focus.atOffset?, wordIndex?, hfind, hfind]
  cases hinside : tokens.findIdx?
      (fun t => t.isName && t.start ≤ offset && offset < t.stop) with
  | none => rfl
  | some i =>
    have hi := (List.findIdx?_eq_some_iff_getElem.1 hinside).1
    simp [ofIndex?, List.getElem?_eq_getElem hi]

end Focus

namespace ReferenceCheck

theorem joinNames_concat_dot (tokens : List Token) {dot : Token}
    (hdot : dot.kind = .dot) :
    joinNames (tokens ++ [dot]) = joinNames tokens := by
  simp [joinNames, hdot]

/-- From the last name of a run that is part of no other, the way back leads
over all of it. -/
theorem IsMaximalRun.qualifier_eq {tokens : List Token} {start stop : Nat}
    (h : IsMaximalRun tokens start stop) :
    ∃ focus, Focus.ofIndex? tokens (stop - 1) = some focus ∧
      (QualifiedRun.ofSpan tokens start stop).column? = some focus.token ∧
      focus.qualifier?
        = some (QualifiedRun.ofSpan tokens start stop).qualifier := by
  have hstop := h.stop_le
  have htwo := h.two_names
  have hlast : stop - 1 < tokens.length := by omega
  obtain ⟨front, dot, column, hrun, hdot, -⟩ :=
    h.path.exists_last (by simp; omega)
  -- the way back from the column is the way forward from it in the reversed
  -- tokens, where the run is maximal as well
  generalize hbefore : (tokens.take (stop - 1)).reverse = before
  have hdrop : tokens.reverse.drop (tokens.length - stop)
      = tokens[stop - 1] :: before := by
    rw [List.drop_reverse,
      show tokens.length - (tokens.length - stop) = stop - 1 + 1 by omega,
      ← List.take_append_getElem hlast, List.reverse_append, hbefore]
    rfl
  have htail := h.reverse.pathTail_eq hdrop
  have hread : tokens[stop - 1] :: before.take (pathTail before)
      = column :: dot :: front.reverse := by
    rw [← extract_of_drop hdrop, htail, extract_reverse (by omega) hstop, hrun]
    simp
  obtain ⟨hcolumn, hback⟩ := List.cons.inj hread
  refine ⟨⟨before, column, tokens.drop (stop - 1 + 1)⟩, ?_, ?_, ?_⟩
  · rw [Focus.ofIndex?, List.getElem?_eq_getElem hlast, hcolumn, hbefore]
    rfl
  · simp [QualifiedRun.column?, QualifiedRun.ofSpan, hrun]
  · have hmore : pathTail before ≠ 0 := by omega
    have hnames : (QualifiedRun.ofSpan tokens start stop).qualifier
        = joinNames front := by
      simp [QualifiedRun.qualifier, QualifiedRun.ofSpan, hrun]
    rw [Focus.qualifier?, if_neg hmore, hback, List.reverse_cons,
      List.reverse_reverse, joinNames_concat_dot _ hdot, hnames]

end ReferenceCheck

open ReferenceCheck

/-- The walk of the check comes to its end. It reads the runs of two or more
names that are part of no other and do not start behind a dot, each once and in
order, and nothing else. A hover is about the token at the index of its name. At
the index of the last name of such a run, the path in front of it is the
qualifier that the check looks up. -/
theorem qualifiers_are_read_alike (tokens : List Token) :
    (∀ offset,
        Focus.atOffset? tokens offset
          = (Focus.wordIndex? tokens offset).bind (Focus.ofIndex? tokens)) ∧
      ∃ spans, Walk tokens 0 spans ∧
        qualifiedRuns 0 none tokens
          = spans.map (fun span => QualifiedRun.ofSpan tokens span.1 span.2) ∧
        spans.Pairwise (fun a b => a.2 ≤ b.1) ∧
        (∀ start stop, (start, stop) ∈ spans ↔
          IsMaximalRun tokens start stop ∧ behindDot tokens start = false) ∧
        ∀ start stop, (start, stop) ∈ spans →
          ∃ focus, Focus.ofIndex? tokens (stop - 1) = some focus ∧
            (QualifiedRun.ofSpan tokens start stop).column? = some focus.token ∧
            focus.qualifier?
              = some (QualifiedRun.ofSpan tokens start stop).qualifier := by
  refine ⟨Focus.atOffset?_eq_bind tokens, ?_⟩
  obtain ⟨spans, hwalk⟩ := exists_walk tokens 0
  have hmem : ∀ start stop, (start, stop) ∈ spans ↔
      IsMaximalRun tokens start stop ∧ behindDot tokens start = false := by
    intro start stop
    rw [hwalk.mem_iff, and_iff_left (Nat.zero_le _)]
  refine ⟨spans, hwalk, hwalk.runsFrom_eq, hwalk.ordered, hmem,
    fun start stop hspan => ?_⟩
  exact ((hmem start stop).1 hspan).1.qualifier_eq

/-- Runs side by side, a keyword as a name, a dot behind a run, and a run that
starts behind a dot. -/
def strayDotsQuery : Text :=
  "SELECT a.b c.d.from e. f..g .h.i \"x y\".z.".toList

theorem qualifiers_are_read_alike_strayDotsQuery :
    let tokens := (Document.ofText strayDotsQuery).tokens
    IsMaximalRun tokens 4 9 ∧ behindDot tokens 4 = false ∧
      (qualifiedRuns 0 none tokens).map QualifiedRun.qualifier
        = ["a", "c.d", "e", "x y"] ∧
      ∃ focus, Focus.ofIndex? tokens 8 = some focus ∧
        focus.token.text = "from" ∧ focus.qualifier? = some "c.d" := by
  intro tokens
  have hrun : IsMaximalRun tokens 4 9 ∧ behindDot tokens 4 = false :=
    runStop?_eq_some_iff.1 (by decide +kernel)
  have hread : (qualifiedRuns 0 none tokens).map QualifiedRun.qualifier
      = ["a", "c.d", "e", "x y"] := by decide +kernel
  have hqualifier : (QualifiedRun.ofSpan tokens 4 9).qualifier = "c.d" := by
    decide +kernel
  have hcolumn : (QualifiedRun.ofSpan tokens 4 9).column?.map Token.text
      = some "from" := by decide +kernel
  obtain ⟨-, spans, -, -, -, hmem, hspans⟩ := qualifiers_are_read_alike tokens
  obtain ⟨focus, hfocus, hlast, hbefore⟩ := hspans 4 9 ((hmem 4 9).2 hrun)
  rw [hlast] at hcolumn
  exact ⟨hrun.1, hrun.2, hread, focus, hfocus, Option.some.inj hcolumn,
    by rw [hbefore, hqualifier]⟩

end QueryAssist
