import Mathlib.Data.List.Nodup
import QueryAssist.Finding.Structure
import QueryAssist.Proofs.Query.TableHeads
import QueryAssist.Proofs.Text.Range

/-!
# Bare pairs of select lists

Two identifiers side by side in a select list lack a comma. Every `SELECT` is
followed to the end of its list, and no list ends at a `SELECT`; so a pair is
met again from each `SELECT` whose list runs into its own outside parentheses.
The pairs of all lists are distinct iff no list runs into one that has pairs.
-/

namespace QueryAssist.Finding

/-- The depth of parentheses in a select list after a token, unless the list
ends there. -/
def depthAfter (depth : Nat) (t : Token) : Option Nat :=
  match t.kind with
  | .leftParen => some (depth + 1)
  | .rightParen => if depth = 0 then none else some (depth - 1)
  | .semicolon => none
  | _ =>
    if depth = 0 ∧ t.isOneOf Keyword.afterProjection then none else some depth

/-- The token after `t` if the two are a bare pair outside parentheses. -/
def pairAt (before : Token) (depth : Nat) (t : Token)
    (rest : List Token) : List Token :=
  rest.head?.toList.filter fun second =>
    depth = 0 ∧ isBarePair before t second rest.tail.head?

/-- The second tokens of the bare pairs in the select list that goes on with
`tokens` after the token `before`. -/
def barePairs (before : Token) (depth : Nat) : List Token → List Token
  | [] => []
  | t :: rest =>
    match depthAfter depth t with
    | none => []
    | some next => pairAt before depth t rest ++ barePairs t next rest

/-- The second tokens of the bare pairs in all select lists. -/
def barePairsOfSelects : List Token → List Token
  | [] => []
  | t :: rest =>
    (if t.isKeyword "SELECT" then barePairs t 0 rest else [])
      ++ barePairsOfSelects rest

/-- The bare pairs of each `SELECT` that a select list runs into outside
parentheses. -/
def pairsRunInto (depth : Nat) : List Token → List (List Token)
  | [] => []
  | t :: rest =>
    match depthAfter depth t with
    | none => []
    | some next =>
      (if depth = 0 ∧ t.isKeyword "SELECT" then [barePairs t 0 rest] else [])
        ++ pairsRunInto next rest

/-- No select list runs into a `SELECT` that has bare pairs of its own. -/
def ListsApart : List Token → Prop
  | [] => True
  | t :: rest =>
    (t.isKeyword "SELECT" = true → ∀ pairs ∈ pairsRunInto 0 rest, pairs = []) ∧
      ListsApart rest

instance decidableListsApart : DecidablePred ListsApart
  | [] => inferInstanceAs (Decidable True)
  | t :: rest =>
    have := decidableListsApart rest
    inferInstanceAs (Decidable
      ((t.isKeyword "SELECT" = true →
          ∀ pairs ∈ pairsRunInto 0 rest, pairs = []) ∧
        ListsApart rest))

theorem depthAfter_of_other {t : Token} (hleft : t.kind ≠ .leftParen)
    (hright : t.kind ≠ .rightParen) (hsemicolon : t.kind ≠ .semicolon)
    (depth : Nat) :
    depthAfter depth t
      = if depth = 0 ∧ t.isOneOf Keyword.afterProjection then none
        else some depth := by
  rw [depthAfter]
  split
  · contradiction
  · contradiction
  · contradiction
  · rfl

theorem depthAfter_of_word {t : Token} (hkind : t.kind = .word)
    {depth next : Nat} (h : depthAfter depth t = some next) : next = depth := by
  rw [depthAfter_of_other (by simp [hkind]) (by simp [hkind])
    (by simp [hkind])] at h
  split at h
  · cases h
  · exact (Option.some.inj h).symm

theorem pairAt_of_not_isIdentifier {t : Token} (h : t.isIdentifier = false)
    (before : Token) (depth : Nat) (rest : List Token) :
    pairAt before depth t rest = [] := by
  simp [pairAt, isBarePair, h]

theorem pairAt_of_depth {depth : Nat} (h : depth ≠ 0) (before t : Token)
    (rest : List Token) : pairAt before depth t rest = [] := by
  simp [pairAt, h]

theorem missingCommasIn_offset (text : Text) (before : Token) (depth : Nat)
    (tokens : List Token) :
    (missingCommasIn text before depth tokens).map (·.span.offset)
      = (barePairs before depth tokens).map Token.start := by
  induction tokens generalizing before depth with
  | nil => rfl
  | cons t rest ih =>
    unfold missingCommasIn
    rw [barePairs]
    split
    · rename_i hkind
      have hpair : pairAt before depth t rest = [] :=
        pairAt_of_not_isIdentifier (by rw [Token.isIdentifier, hkind]) ..
      simp only [depthAfter, hkind, hpair, List.nil_append]
      exact ih t (depth + 1)
    · rename_i hkind
      simp only [depthAfter, hkind]
      split
      · rfl
      · rename_i hdepth
        simp only [pairAt_of_depth hdepth, List.nil_append]
        exact ih t (depth - 1)
    · rename_i hkind
      simp only [depthAfter, hkind]
      rfl
    · rename_i hleft hright hsemicolon
      rw [depthAfter_of_other hleft hright hsemicolon]
      split
      · rfl
      · simp only [List.map_append, ih]
        refine congrArg (· ++ _) ?_
        cases rest with
        | nil => rfl
        | cons second more =>
          by_cases hpair :
            depth = 0 ∧ isBarePair before t second more.head? = true
          · simp [pairAt, hpair, locate, Span.locate_offset]
          · simp [pairAt, hpair]

theorem missingCommas_offset (text : Text) (tokens : List Token) :
    (missingCommas text tokens).map (·.span.offset)
      = (barePairsOfSelects tokens).map Token.start := by
  induction tokens with
  | nil => rfl
  | cons t rest ih =>
    rw [missingCommas, barePairsOfSelects, List.map_append, List.map_append, ih]
    split
    · rw [missingCommasIn_offset]
    · rfl

theorem pairAt_sublist (before : Token) (depth : Nat) (t : Token)
    (rest : List Token) :
    (pairAt before depth t rest).Sublist rest.head?.toList :=
  List.filter_sublist

theorem head?_append_tail (tokens : List Token) :
    tokens.head?.toList ++ tokens.tail = tokens := by
  cases tokens <;> rfl

/-- The second token of a pair is not the first token that is scanned. -/
theorem barePairs_sublist (before : Token) (depth : Nat) (tokens : List Token) :
    (barePairs before depth tokens).Sublist tokens.tail := by
  induction tokens generalizing before depth with
  | nil => exact .refl _
  | cons t rest ih =>
    rw [barePairs, List.tail_cons]
    cases depthAfter depth t with
    | none => exact List.nil_sublist _
    | some next =>
      have happend := (pairAt_sublist before depth t rest).append (ih t next)
      rwa [head?_append_tail] at happend

theorem barePairsOfSelects_subset (tokens : List Token) :
    barePairsOfSelects tokens ⊆ tokens.tail := by
  induction tokens with
  | nil => exact List.Subset.refl _
  | cons t rest ih =>
    have htail := (List.tail_sublist rest).subset
    rw [barePairsOfSelects, List.tail_cons]
    refine List.append_subset.2 ⟨?_, List.Subset.trans ih htail⟩
    split
    · exact List.Subset.trans (barePairs_sublist t 0 rest).subset htail
    · exact List.nil_subset _

/-- The token after `t` is in no list of pairs of what follows `t`. -/
theorem pairAt_disjoint {rest : List Token} (hnodup : rest.Nodup)
    {pairs : List Token} (hpairs : pairs ⊆ rest.tail) (before : Token)
    (depth : Nat) (t : Token) :
    (pairAt before depth t rest).Disjoint pairs := by
  rw [← head?_append_tail rest] at hnodup
  exact List.disjoint_of_subset_left (pairAt_sublist before depth t rest).subset
    (List.disjoint_of_subset_right hpairs
      (List.disjoint_of_nodup_append hnodup))

theorem depthAfter_add {depth next : Nat} {t : Token}
    (h : depthAfter depth t = some next) (more : Nat) :
    depthAfter (depth + more) t = some (next + more) := by
  rw [depthAfter] at h ⊢
  split at h
  · cases h
    simp only [Option.some.injEq]
    omega
  · split at h
    · cases h
    · cases h
      simp only [if_neg (show ¬ depth + more = 0 by omega), Option.some.injEq]
      omega
  · cases h
  · split at h
    · cases h
    · cases h
      rename_i hlast
      rw [if_neg]
      exact fun hzero => hlast ⟨by omega, hzero.2⟩

/-- Two scans of the same tokens, one deeper in parentheses than the other, find
different pairs: the deeper one finds none before it leaves the parentheses that
the other one starts in, and there the other one stops. -/
theorem barePairs_disjoint_deeper {tokens : List Token} (hnodup : tokens.Nodup)
    (before before' : Token) (depth more : Nat) :
    (barePairs before depth tokens).Disjoint
      (barePairs before' (depth + (more + 1)) tokens) := by
  induction tokens generalizing before before' depth with
  | nil => exact List.disjoint_nil_left _
  | cons t rest ih =>
    obtain ⟨-, hrest⟩ := List.nodup_cons.1 hnodup
    rw [barePairs, barePairs]
    cases hnext : depthAfter depth t with
    | none => exact List.disjoint_nil_left _
    | some next =>
      rw [depthAfter_add hnext,
        pairAt_of_depth (show depth + (more + 1) ≠ 0 by omega)]
      simp only [List.nil_append, List.disjoint_append_left]
      exact ⟨pairAt_disjoint hrest (barePairs_sublist _ _ _).subset _ _ _,
        ih hrest t t next⟩

/-- A scan shares no pair with the select lists in what it scans iff those of
them that it runs into have none. -/
theorem barePairs_disjoint_iff {tokens : List Token} (hnodup : tokens.Nodup)
    (before : Token) (depth : Nat) :
    (barePairs before depth tokens).Disjoint (barePairsOfSelects tokens) ↔
      ∀ pairs ∈ pairsRunInto depth tokens, pairs = [] := by
  induction tokens generalizing before depth with
  | nil => simp [barePairs, pairsRunInto]
  | cons t rest ih =>
    obtain ⟨-, hrest⟩ := List.nodup_cons.1 hnodup
    rw [barePairs, barePairsOfSelects, pairsRunInto]
    cases hnext : depthAfter depth t with
    | none => simp
    | some next =>
      have hpair : (pairAt before depth t rest).Disjoint
          (if t.isKeyword "SELECT" then barePairs t 0 rest else []) := by
        split
        · exact pairAt_disjoint hrest (barePairs_sublist _ _ _).subset _ _ _
        · exact List.disjoint_nil_right _
      have hlater :=
        pairAt_disjoint hrest (barePairsOfSelects_subset rest) before depth t
      simp only [List.disjoint_append_left, List.disjoint_append_right, hpair,
        hlater, ih hrest t next, List.mem_append, or_imp, forall_and, true_and]
      refine and_congr_left' ?_
      by_cases hselect : t.isKeyword "SELECT" = true
      · have hsame : next = depth :=
          depthAfter_of_word (Token.kind_of_isKeyword hselect) hnext
        rw [if_pos hselect, hsame]
        rcases Nat.eq_zero_or_pos depth with rfl | hdepth
        -- The list goes on as the list of this `SELECT` does, with the
        -- same pairs.
        · simp [hselect, List.disjoint_left, List.eq_nil_iff_forall_not_mem]
        · have hdeeper := barePairs_disjoint_deeper hrest t t 0 (depth - 1)
          rw [show 0 + (depth - 1 + 1) = depth by omega] at hdeeper
          simp [List.disjoint_comm.1 hdeeper, show depth ≠ 0 by omega]
      · simp [hselect]

theorem nodup_barePairsOfSelects_iff {tokens : List Token}
    (hnodup : tokens.Nodup) :
    (barePairsOfSelects tokens).Nodup ↔ ListsApart tokens := by
  induction tokens with
  | nil => simp [barePairsOfSelects, ListsApart]
  | cons t rest ih =>
    obtain ⟨-, hrest⟩ := List.nodup_cons.1 hnodup
    rw [barePairsOfSelects, ListsApart, List.nodup_append', ih hrest]
    by_cases hselect : t.isKeyword "SELECT" = true
    · have hown : (barePairs t 0 rest).Nodup :=
        hrest.sublist
          ((barePairs_sublist t 0 rest).trans (List.tail_sublist rest))
      simp only [hselect, if_true, hown, true_and, barePairs_disjoint_iff hrest,
        forall_const]
      exact and_comm
    · simp [hselect]

end QueryAssist.Finding
