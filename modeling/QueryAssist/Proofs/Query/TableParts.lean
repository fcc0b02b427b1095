import QueryAssist.Query.TableRef

/-!
# The parts of a table reference

A reference is a path and the tokens behind it, of which an alias takes none,
one or two. A path is a list of names with a dot between each two of them.
-/

namespace QueryAssist

/-! ## Paths -/

theorem pathTail_le (ts : List Token) : pathTail ts ≤ ts.length := by
  induction ts using pathTail.induct with
  | case1 dot t rest h ih =>
    rw [pathTail, if_pos h]
    simpa using ih
  | case2 dot t rest h =>
    rw [pathTail, if_neg h]
    exact Nat.zero_le _
  | case3 ts h =>
    match ts with
    | [] => exact Nat.zero_le _
    | [_] => exact Nat.zero_le _
    | dot :: t :: rest => exact absurd rfl (h dot t rest)

/-- A path holds names and dots only. -/
theorem isName_or_dot_of_path {path : List Token} {name : String}
    (h : dottedPath path = some name) :
    ∀ t ∈ path, t.isName = true ∨ t.kind = .dot := by
  obtain ⟨names, hnames, -⟩ := Option.map_eq_some_iff.1 h
  clear h
  fun_induction pathNames path generalizing names with
  | case1 => simp
  | case2 t hname => simp [hname]
  | case3 t hname => cases hnames
  | case4 t dot rest hpath ih =>
    simp only [Bool.and_eq_true, beq_iff_eq] at hpath
    obtain ⟨more, hmore, -⟩ := Option.map_eq_some_iff.1 hnames
    intro u hu
    rcases List.mem_cons.1 hu with rfl | hu
    · exact Or.inl hpath.1
    · rcases List.mem_cons.1 hu with rfl | hu
      · exact Or.inr hpath.2
      · exact ih _ hmore u hu
  | case5 t dot rest hpath => cases hnames

/-- A name in a path is its last token, or a dot follows. -/
theorem dot_behind_name {before after : List Token} {t : Token} {name : String}
    (h : dottedPath (before ++ t :: after) = some name) (ht : t.kind ≠ .dot) :
    after = [] ∨ ∃ dot rest, after = dot :: rest ∧ dot.kind = .dot := by
  obtain ⟨names, hnames, -⟩ := Option.map_eq_some_iff.1 h
  clear h
  generalize hpath : before ++ t :: after = path at hnames
  fun_induction pathNames path generalizing names before with
  | case1 => simp at hpath
  | case2 u hname =>
    have hlength := congrArg List.length hpath
    simp only [List.length_append, List.length_cons, List.length_nil] at hlength
    exact Or.inl (List.length_eq_zero_iff.1 (by omega))
  | case3 u hname => cases hnames
  | case4 u dot rest hdotted ih =>
    simp only [Bool.and_eq_true, beq_iff_eq] at hdotted
    obtain ⟨more, hmore, -⟩ := Option.map_eq_some_iff.1 hnames
    match before with
    | [] =>
      obtain ⟨-, rfl⟩ := List.cons.inj hpath
      exact Or.inr ⟨dot, rest, rfl, hdotted.2⟩
    | [_] =>
      obtain ⟨rfl, -⟩ := List.cons.inj (List.cons.inj hpath).2
      exact absurd hdotted.2 ht
    | _ :: _ :: before =>
      exact ih _ (List.cons.inj (List.cons.inj hpath).2).2 hmore
  | case5 u dot rest hdotted => cases hnames

/-! ## Aliases -/

/-- The ways to read an alias in front of tokens: the token that gives it, if
there is one, and how many tokens are taken. -/
inductive ReadsAlias : List Token → Option Token → Nat → Prop where
  | absent (tokens : List Token) : ReadsAlias tokens none 0
  | missing {as : Token} (rest : List Token) (has : as.isKeyword "AS" = true) :
      ReadsAlias (as :: rest) none 1
  | named {as t : Token} (rest : List Token) (has : as.isKeyword "AS" = true)
      (hname : t.isName = true) (hclause : Keyword.isClause t.text = false) :
      ReadsAlias (as :: t :: rest) (some t) 2
  | bare {t : Token} (rest : List Token) (hname : t.isIdentifier = true)
      (hclause : Keyword.isClause t.text = false) :
      ReadsAlias (t :: rest) (some t) 1

theorem readAlias_reads (tokens : List Token) :
    ∃ found, ReadsAlias tokens found (readAlias tokens).2 ∧
      (readAlias tokens).1 = found.map Token.name := by
  cases tokens with
  | nil => exact ⟨none, .absent [], rfl⟩
  | cons t rest =>
    unfold readAlias
    dsimp only
    split
    · rename_i has
      cases rest with
      | nil => exact ⟨none, .missing [] has, rfl⟩
      | cons a more =>
        simp only
        split
        · rename_i hname
          simp only [Bool.and_eq_true, Bool.not_eq_true'] at hname
          exact ⟨some a, .named more has hname.1 hname.2, rfl⟩
        · exact ⟨none, .missing (a :: more) has, rfl⟩
    · split
      · rename_i hname
        simp only [Bool.and_eq_true, Bool.not_eq_true'] at hname
        exact ⟨some t, .bare rest hname.1 hname.2, rfl⟩
      · exact ⟨none, .absent (t :: rest), rfl⟩

namespace ReadsAlias

variable {tokens : List Token} {found : Option Token} {used : Nat}

theorem le (h : ReadsAlias tokens found used) : used ≤ tokens.length := by
  cases h <;> simp

/-- The token that gives the alias is the last one taken. -/
theorem getElem? {t : Token}
    (h : ReadsAlias tokens (some t) used) : tokens[used - 1]? = some t := by
  cases h <;> rfl

end ReadsAlias

theorem readAlias_le (tokens : List Token) :
    (readAlias tokens).2 ≤ tokens.length := by
  obtain ⟨found, hreads, -⟩ := readAlias_reads tokens
  exact hreads.le

/-! ## References -/

/-- A path and the tokens behind it as they are read for a reference. -/
structure ReadsAs (path following : List Token) (table : TableRef) : Prop where
  spelled : dottedPath path = some table.name
  start : path.head?.map Token.start = some table.start
  stop : path.getLast?.map Token.stop = some table.stop
  aliased : (readAlias following).1 = table.aliasName

/-- A reference takes its path and its alias. -/
theorem readTableRef_parts {tokens : List Token} {table : TableRef} {used : Nat}
    (h : readTableRef tokens = some (table, used)) :
    ∃ path following, tokens = path ++ following ∧
      used = path.length + (readAlias following).2 ∧
      ReadsAs path following table := by
  cases tokens with
  | nil => cases h
  | cons first rest =>
    rw [readTableRef] at h
    split at h
    · cases h
    · simp only at h
      split at h
      · cases h
      · simp only [Option.bind_eq_bind, Option.bind_eq_some_iff,
          Option.some.injEq, Prod.mk.injEq] at h
        obtain ⟨name, hname, last, hlast, rfl, rfl⟩ := h
        refine ⟨first :: rest.take (pathTail rest), rest.drop (pathTail rest),
          ?_, ?_, hname, rfl, ?_, rfl⟩
        · rw [List.cons_append, List.take_append_drop]
        · rw [List.length_cons, List.length_take,
            Nat.min_eq_left (pathTail_le rest), Nat.add_comm 1]
        · rw [hlast, Option.map_some]

theorem isIdentifier_of_readTableRef {t : Token} {ts : List Token}
    (h : (readTableRef (t :: ts)).isSome = true) : t.isIdentifier = true := by
  rw [readTableRef] at h
  split at h
  · cases h
  · rename_i hfirst
    simpa using hfirst

theorem readTableRef_le {tokens : List Token} {table : TableRef} {used : Nat}
    (h : readTableRef tokens = some (table, used)) : used ≤ tokens.length := by
  obtain ⟨path, following, rfl, rfl, -⟩ := readTableRef_parts h
  have hle := readAlias_le following
  rw [List.length_append]
  omega

end QueryAssist
