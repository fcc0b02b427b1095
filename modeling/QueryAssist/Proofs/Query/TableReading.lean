import Mathlib.Data.List.Pairwise
import QueryAssist.Proofs.Query.TableHeads
import QueryAssist.Proofs.Token.Tiling

/-!
# Table references are read once

A `FROM` reads the tables of its list ahead of the scan for further heads, and
the scan then goes through the same tokens. Of these only the last name of a
path can be a `FROM` or a `JOIN` that reads tables of its own, and it reads
what stands right behind the path. So a token is read twice in one way only: a
path ends in `FROM` or `JOIN`, and the alias behind it, without an `AS`, can be
read as a table.
-/

namespace QueryAssist

/-! ## The tokens of a reference -/

namespace TableRef

/-- The tokens of the path: those that start in its bytes. -/
def path (table : TableRef) (tokens : List Token) : List Token :=
  tokens.filter fun t => table.start ≤ t.start && t.start < table.stop

/-- The tokens behind the path. -/
def behind (table : TableRef) (tokens : List Token) : List Token :=
  tokens.dropWhile (·.start < table.stop)

/-- The token that gives the alias, if there is one: the last of those that are
read for it. -/
def aliasToken? (table : TableRef) (tokens : List Token) : Option Token :=
  let following := table.behind tokens
  (readAlias following).1.bind fun _ => following[(readAlias following).2 - 1]?

/-- The tokens that the reference uses, in its path or as its alias. -/
def used (table : TableRef) (tokens : List Token) : List Token :=
  table.path tokens ++ (table.aliasToken? tokens).toList

/-- Where the reference ends, with its alias. -/
def reach (table : TableRef) (tokens : List Token) : Nat :=
  ((table.aliasToken? tokens).map Token.stop).getD table.stop

/-- Whether the path ends in a word behind which tables are named, and the alias
right behind it can be read as one. -/
def isReadAgain (table : TableRef) (tokens : List Token) : Bool :=
  (table.path tokens).getLast?.any Token.headsTables
    && table.aliasToken? tokens == (table.behind tokens).head?
    && (readTableRef (table.behind tokens)).isSome

/-- Neither reference uses a token of the other's path. -/
def Unshared (tokens : List Token) (a b : TableRef) : Prop :=
  (∀ t ∈ a.used tokens, t ∉ b.path tokens) ∧
    ∀ t ∈ b.used tokens, t ∉ a.path tokens

instance (tokens : List Token) (a b : TableRef) :
    Decidable (Unshared tokens a b) :=
  inferInstanceAs (Decidable
    ((∀ t ∈ a.used tokens, t ∉ b.path tokens) ∧
      ∀ t ∈ b.used tokens, t ∉ a.path tokens))

instance (tokens : List Token) : Std.Symm (Unshared tokens) :=
  ⟨fun _ _ h => ⟨h.2, h.1⟩⟩

end TableRef

/-- The references stand one behind the other, and no token that one of them
uses is in the path of another. -/
def ReadOnce (tokens : List Token) : Prop :=
  (tableRefs tokens).Pairwise fun a b =>
    a.start < b.start ∧ a.stop ≤ b.start ∧ TableRef.Unshared tokens a b

instance (tokens : List Token) : Decidable (ReadOnce tokens) :=
  inferInstanceAs (Decidable ((tableRefs tokens).Pairwise _))

namespace Aligned

variable {text : Text} {tokens : List Token}

theorem first_le (h : Aligned text tokens) {start : Nat}
    (hstart : tokens.head?.map Token.start = some start) :
    ∀ t ∈ tokens, start ≤ t.start := by
  cases tokens with
  | nil => cases hstart
  | cons first rest =>
    obtain rfl := Option.some.inj hstart
    intro t ht
    rcases List.mem_cons.1 ht with rfl | ht
    · exact Nat.le_refl _
    · have hlt := (h.range first List.mem_cons_self).lt
      have hle := (List.pairwise_cons.1 h.ordered).1 t ht
      omega

theorem le_last (h : Aligned text tokens) {stop : Nat}
    (hstop : tokens.getLast?.map Token.stop = some stop) :
    ∀ t ∈ tokens, t.stop ≤ stop := by
  obtain ⟨last, hlast, rfl⟩ := Option.map_eq_some_iff.1 hstop
  obtain ⟨front, rfl⟩ := List.getLast?_eq_some_iff.1 hlast
  intro t ht
  rcases List.mem_append.1 ht with ht | ht
  · have hlt := (h.range last (by simp)).lt
    have hle :=
      (List.pairwise_append.1 h.ordered).2.2 t ht last
        (List.mem_singleton_self last)
    omega
  · exact Nat.le_of_eq (congrArg Token.stop (List.mem_singleton.1 ht))

end Aligned

/-! ## References among the tokens -/

/-- A reference that is read off a path behind `before`, with the tokens
that follow. -/
structure ReadIn (tokens before path following : List Token)
    (table : TableRef) : Prop extends ReadsAs path following table where
  split : tokens = before ++ (path ++ following)

namespace ReadIn

variable {text : Text} {tokens before path following : List Token}
  {table : TableRef}

theorem append_left (h : ReadIn tokens before path following table)
    (front : List Token) :
    ReadIn (front ++ tokens) (front ++ before) path following table where
  toReadsAs := h.toReadsAs
  split := by rw [h.split, List.append_assoc]

theorem aligned_path (h : ReadIn tokens before path following table)
    (haligned : Aligned text tokens) : Aligned text path := by
  refine haligned.sublist ?_
  rw [h.split]
  exact (List.sublist_append_left path following).trans
    (List.sublist_append_right before _)

theorem aligned_following (h : ReadIn tokens before path following table)
    (haligned : Aligned text tokens) : Aligned text following := by
  refine haligned.sublist ?_
  rw [h.split]
  exact (List.sublist_append_right path following).trans
    (List.sublist_append_right before _)

theorem bounds (h : ReadIn tokens before path following table)
    (haligned : Aligned text tokens) :
    ∀ t ∈ path,
      table.start ≤ t.start ∧ t.start < t.stop ∧ t.stop ≤ table.stop := by
  have hpath := h.aligned_path haligned
  exact fun t ht => ⟨hpath.first_le h.start t ht, (hpath.range t ht).lt,
    hpath.le_last h.stop t ht⟩

theorem start_lt_stop (h : ReadIn tokens before path following table)
    (haligned : Aligned text tokens) : table.start < table.stop := by
  obtain ⟨first, hfirst, -⟩ := Option.map_eq_some_iff.1 h.start
  have hbounds := h.bounds haligned first (List.mem_of_head? hfirst)
  omega

theorem stop_le_before (h : ReadIn tokens before path following table)
    (haligned : Aligned text tokens) :
    ∀ t ∈ before, t.start < t.stop ∧ t.stop ≤ table.start := by
  intro t ht
  obtain ⟨first, hfirst, hstart⟩ := Option.map_eq_some_iff.1 h.start
  have hsplit := h.split
  subst hsplit
  have hle := (List.pairwise_append.1 haligned.ordered).2.2 t ht first
    (List.mem_append_left _ (List.mem_of_head? hfirst))
  exact ⟨(haligned.range t (List.mem_append_left _ ht)).lt, hstart ▸ hle⟩

theorem stop_le_following (h : ReadIn tokens before path following table)
    (haligned : Aligned text tokens) :
    ∀ t ∈ following, table.stop ≤ t.start := by
  intro t ht
  obtain ⟨last, hlast, hstop⟩ := Option.map_eq_some_iff.1 h.stop
  have hsplit := h.split
  subst hsplit
  have hparts := (List.pairwise_append.1 haligned.ordered).2.1
  exact hstop
    ▸ (List.pairwise_append.1 hparts).2.2 last (List.mem_of_getLast? hlast) t ht

theorem path_eq (h : ReadIn tokens before path following table)
    (haligned : Aligned text tokens) : table.path tokens = path := by
  have hbefore : before.filter
        (fun t => table.start ≤ t.start && t.start < table.stop) = [] := by
    refine List.filter_eq_nil_iff.2 fun t ht => ?_
    have := h.stop_le_before haligned t ht
    simp only [Bool.and_eq_true, decide_eq_true_eq]
    omega
  have hpath : path.filter
        (fun t => table.start ≤ t.start && t.start < table.stop) = path := by
    refine List.filter_eq_self.2 fun t ht => ?_
    have := h.bounds haligned t ht
    simp only [Bool.and_eq_true, decide_eq_true_eq]
    omega
  have hfollowing : following.filter
        (fun t => table.start ≤ t.start && t.start < table.stop) = [] := by
    refine List.filter_eq_nil_iff.2 fun t ht => ?_
    have := h.stop_le_following haligned t ht
    simp only [Bool.and_eq_true, decide_eq_true_eq]
    omega
  rw [TableRef.path, h.split, List.filter_append, List.filter_append, hbefore,
    hpath, hfollowing, List.nil_append, List.append_nil]

theorem behind_eq (h : ReadIn tokens before path following table)
    (haligned : Aligned text tokens) : table.behind tokens = following := by
  have hfront : ∀ t ∈ before ++ path, decide (t.start < table.stop) = true := by
    intro t ht
    have hlt := h.start_lt_stop haligned
    rw [decide_eq_true_eq]
    rcases List.mem_append.1 ht with ht | ht
    · have := h.stop_le_before haligned t ht
      omega
    · have := h.bounds haligned t ht
      omega
  rw [TableRef.behind, h.split, ← List.append_assoc,
    List.dropWhile_append_of_pos hfront]
  cases hfollowing : following with
  | nil => rfl
  | cons t rest =>
    have hle := h.stop_le_following haligned t (by simp [hfollowing])
    rw [List.dropWhile_cons_of_neg (by simpa using hle)]

/-- The alias is read behind the path. -/
theorem reads_alias (h : ReadIn tokens before path following table)
    (haligned : Aligned text tokens) :
    ReadsAlias following (table.aliasToken? tokens) (readAlias following).2 ∧
      (table.aliasToken? tokens).map Token.name = table.aliasName := by
  obtain ⟨found, hreads, hname⟩ := readAlias_reads following
  have hfound : table.aliasToken? tokens = found := by
    rw [TableRef.aliasToken?, h.behind_eq haligned]
    rw [hname]
    cases found with
    | none => rfl
    | some t => exact hreads.getElem?
  rw [hfound, ← h.aliased, hname]
  exact ⟨hreads, rfl⟩

theorem aliasToken_mem (h : ReadIn tokens before path following table)
    (haligned : Aligned text tokens) :
    ∀ t ∈ table.aliasToken? tokens, t ∈ following := by
  intro t ht
  have hreads := (h.reads_alias haligned).1
  rw [Option.mem_def.1 ht] at hreads
  exact List.mem_of_getElem? hreads.getElem?

theorem stop_le_reach (h : ReadIn tokens before path following table)
    (haligned : Aligned text tokens) : table.stop ≤ table.reach tokens := by
  rw [TableRef.reach]
  cases halias : table.aliasToken? tokens with
  | none => exact Nat.le_refl _
  | some t =>
    have hmem := h.aliasToken_mem haligned t halias
    have hle := h.stop_le_following haligned t hmem
    have hlt := ((h.aligned_following haligned).range t hmem).lt
    exact Nat.le_of_lt (Nat.lt_of_le_of_lt hle hlt)

/-- What stands behind the alias starts behind it. -/
theorem reach_le (h : ReadIn tokens before path following table)
    (haligned : Aligned text tokens) :
    ∀ t ∈ following.drop (readAlias following).2,
      table.reach tokens ≤ t.start := by
  intro t ht
  have hordered := (h.aligned_following haligned).ordered
  have hstop := h.stop_le_following haligned t (List.mem_of_mem_drop ht)
  have hreads := (h.reads_alias haligned).1
  rw [TableRef.reach]
  generalize table.aliasToken? tokens = found,
  (readAlias following).2 = n at hreads ht
  cases hreads with
  | absent => exact hstop
  | missing rest has => exact hstop
  | named rest has hname hclause =>
    exact (List.pairwise_cons.1 (List.pairwise_cons.1 hordered).2).1 t ht
  | bare rest hname hclause => exact (List.pairwise_cons.1 hordered).1 t ht

end ReadIn

/-! ## Lists -/

/-- A list starts with `ONLY`, or with a table. -/
theorem readTableList_head {commas : Bool} {t : Token} {ts : List Token}
    (h : readTableList commas 0 (t :: ts) ≠ []) :
    t.isKeyword "ONLY" = true ∨ (readTableRef (t :: ts)).isSome = true := by
  obtain ⟨only, list, table, used, hsplit, honly, hread, -⟩ :=
    readTableList_cases h
  cases only with
  | nil =>
    rw [List.nil_append] at hsplit
    exact Or.inr (by rw [hsplit, hread]; rfl)
  | cons u us =>
    obtain ⟨rfl, -⟩ := List.cons.inj hsplit
    exact Or.inl (honly t List.mem_cons_self)

/-- Neither a mark nor an `AS` starts a list. -/
theorem readTableList_head_word {commas : Bool} {t : Token} {ts : List Token}
    (h : readTableList commas 0 (t :: ts) ≠ []) :
    t.isName = true ∧ t.isKeyword "AS" = false := by
  rcases readTableList_head h with honly | hread
  · exact ⟨Token.isName_of_isKeyword honly,
      Token.isKeyword_of_ne honly (by decide)⟩
  · have hfirst := isIdentifier_of_readTableRef hread
    exact ⟨Token.isName_of_isIdentifier hfirst,
      Token.isKeyword_of_isIdentifier hfirst (by decide)⟩

/-- The table in front of a list, as it is read among all tokens. -/
theorem ReadIn.of_list (only : List Token) {list : List Token}
    {table : TableRef} {used : Nat}
    (h : readTableRef list = some (table, used)) :
    ∃ path following, list.drop used = following.drop (readAlias following).2 ∧
      ReadIn (only ++ list) only path following table := by
  obtain ⟨path, following, rfl, rfl, hreads⟩ := readTableRef_parts h
  exact ⟨path, following, by rw [← List.drop_drop, List.drop_left], hreads, rfl⟩

/-- The tables of a list stand one behind the other. -/
theorem readTableList_apart {text : Text} {tokens : List Token}
    (haligned : Aligned text tokens) (commas : Bool) {before ts : List Token}
    (hsplit : tokens = before ++ ts) :
    (readTableList commas 0 ts).Pairwise fun a b =>
      a.reach tokens ≤ b.start := by
  induction ts using readTableList_induction commas generalizing before with
  | empty ts h =>
    rw [h]
    exact List.Pairwise.nil
  | last only list table used honly hread h =>
    rw [h]
    exact List.pairwise_singleton _ _
  | next only taken comma more table honly hcommas hread hcomma h ih =>
    obtain ⟨path, following, hdrop, hplace⟩ := ReadIn.of_list only hread
    have htable := hplace.append_left before
    rw [← hsplit] at htable
    rw [List.drop_left] at hdrop
    rw [h, List.pairwise_cons]
    constructor
    · intro b hb
      obtain ⟨t, ht, hstart⟩ :=
        List.mem_map.1
          ((readTableList_starts commas more).subset (List.mem_map_of_mem hb))
      rw [← hstart]
      exact htable.reach_le haligned t
        (by rw [← hdrop]; exact List.mem_cons_of_mem comma ht)
    · have hmore : tokens = (before ++ only ++ taken ++ [comma]) ++ more := by
        rw [hsplit]
        simp
      exact ih hmore

/-! ## Heads inside a list -/

theorem append_cons_cases {front back inside after : List Token} {t : Token}
    (h : front ++ back = inside ++ t :: after) :
    (∃ skipped, inside = front ++ skipped ∧ back = skipped ++ t :: after) ∨
      ∃ rest, front = inside ++ t :: rest ∧ after = rest ++ back := by
  rcases List.append_eq_append_iff.1 h
    with ⟨skipped, hinside, hback⟩ | ⟨rest, hfront, hafter⟩
  · exact Or.inl ⟨skipped, hinside, hback⟩
  · cases rest with
    | nil =>
      exact Or.inl
        ⟨[], by rw [hfront, List.append_nil, List.append_nil], hafter.symm⟩
    | cons first rest =>
      obtain ⟨rfl, rfl⟩ := List.cons.inj hafter
      exact Or.inr ⟨rest, hfront, rfl⟩

theorem Token.clause_of_headsTables {head : Token}
    (h : head.headsTables = true) :
    ∃ keyword ∈ Keyword.clauses,
      keyword ≠ "ONLY" ∧ head.isKeyword keyword = true := by
  rcases Bool.or_eq_true_iff.1 h with hfrom | hjoin
  · exact ⟨"FROM", by decide, by decide, hfrom⟩
  · exact ⟨"JOIN", by decide, by decide, hjoin⟩

theorem Token.kind_of_headsTables {head : Token}
    (h : head.headsTables = true) : head.kind = .word := by
  obtain ⟨keyword, -, -, hkeyword⟩ := Token.clause_of_headsTables h
  exact Token.kind_of_isKeyword hkeyword

section Heads

variable {text : Text} {tokens before path following inside after : List Token}
  {table : TableRef} {head : Token} {commas : Bool}

/-- A head that reads tables stands behind the alias of a reference before it,
or is the end of the path. -/
theorem ReadsAs.head_place (h : ReadsAs path following table)
    (hsplit : path ++ following = inside ++ head :: after)
    (hhead : head.headsTables = true)
    (hlist : readTableList commas 0 after ≠ []) :
    (∃ skipped,
        following.drop (readAlias following).2 = skipped ++ head :: after) ∨
      path = inside ++ [head] ∧ following = after := by
  rcases append_cons_cases hsplit
    with ⟨skipped, -, hfollowing⟩ | ⟨rest, rfl, rfl⟩
  · obtain ⟨keyword, hclause, -, hkeyword⟩ := Token.clause_of_headsTables hhead
    obtain ⟨found, hreads, -⟩ := readAlias_reads following
    rw [← List.take_append_drop (readAlias following).2 following] at hfollowing
    rcases append_cons_cases hfollowing
      with ⟨skipped', -, hbehind⟩ | ⟨rest, htaken, -⟩
    · exact Or.inl ⟨skipped', hbehind⟩
    · have hno := hreads.not_keyword hclause head (by rw [htaken]; simp)
      rw [hkeyword] at hno
      cases hno
  · have hword : head.kind ≠ .dot := by
      rw [Token.kind_of_headsTables hhead]; decide
    rcases dot_behind_name h.spelled hword with rfl | ⟨dot, more, rfl, hdot⟩
    · exact Or.inr ⟨rfl, rfl⟩
    · have hname := (readTableList_head_word hlist).1
      simp [Token.isName, hdot] at hname

/-- So it reads tables behind the alias, unless the alias is read again. -/
theorem ReadIn.behind_head (h : ReadIn tokens before path following table)
    (haligned : Aligned text tokens) (hagain : table.isReadAgain tokens = false)
    (hsplit : path ++ following = inside ++ head :: after)
    (hhead : head.headsTables = true)
    (hlist : readTableList commas 0 after ≠ []) :
    (∃ skipped,
        following.drop (readAlias following).2 = skipped ++ head :: after) ∨
      following.drop (readAlias following).2 = after := by
  rcases h.head_place hsplit hhead hlist with hbehind | ⟨rfl, rfl⟩
  · exact Or.inl hbehind
  · refine Or.inr ?_
    have hreads := (h.reads_alias haligned).1
    rw [TableRef.isReadAgain, h.path_eq haligned,
      h.behind_eq haligned] at hagain
    generalize table.aliasToken? tokens = found,
    (readAlias following).2 = n at hreads hagain ⊢
    -- No list starts with an `AS`. So an alias stands alone, and the head reads
    -- it as a table.
    cases hreads with
    | absent => rfl
    | missing rest has =>
      have hno := (readTableList_head_word hlist).2
      rw [has] at hno
      cases hno
    | named rest has hname hclause =>
      have hno := (readTableList_head_word hlist).2
      rw [has] at hno
      cases hno
    | bare rest hname hclause =>
      rcases readTableList_head hlist with honly | hread
      · rw [Token.isKeyword_of_isIdentifier hname (by decide)] at honly
        cases honly
      · simp [hhead, hread] at hagain

/-- The same of the first table of a list. -/
theorem front_before_head {only list : List Token} {used : Nat}
    (haligned : Aligned text tokens)
    (hsplit : tokens = before ++ (only ++ list))
    (hinside : only ++ list = inside ++ head :: after)
    (honly : ∀ t ∈ only, t.isKeyword "ONLY" = true)
    (hread : readTableRef list = some (table, used))
    (hagain : table.isReadAgain tokens = false)
    (hhead : head.headsTables = true)
    (hlist : readTableList commas 0 after ≠ []) :
    (∀ t ∈ after, table.reach tokens ≤ t.start) ∧
      ((∃ skipped, list.drop used = skipped ++ head :: after) ∨
        list.drop used = after) := by
  obtain ⟨path, following, hdrop, hplace⟩ := ReadIn.of_list only hread
  have htable := hplace.append_left before
  rw [← hsplit] at htable
  rcases append_cons_cases hinside
    with ⟨skipped, -, hskipped⟩ | ⟨rest, hrest, -⟩
  · rw [List.append_cancel_left hplace.split] at hskipped
    have hbehind := htable.behind_head haligned hagain hskipped hhead hlist
    rw [hdrop]
    refine ⟨fun t ht => htable.reach_le haligned t ?_, hbehind⟩
    rcases hbehind with ⟨skipped', hbehind⟩ | hbehind
    · rw [hbehind]
      exact List.mem_append_right _ (List.mem_cons_of_mem head ht)
    · rwa [hbehind]
  · obtain ⟨keyword, -, hne, hkeyword⟩ := Token.clause_of_headsTables hhead
    have hno := honly head (by rw [hrest]; simp)
    rw [Token.isKeyword_of_ne hkeyword hne] at hno
    cases hno

/-- A head reads tables behind all those of a list in which it stands, if none
of them is read again. -/
theorem readTableList_before_head {commas' : Bool} {ts : List Token}
    (haligned : Aligned text tokens) (hsplit : tokens = before ++ ts)
    (hinside : ts = inside ++ head :: after) (hhead : head.headsTables = true)
    (hlist : readTableList commas' 0 after ≠ [])
    (honce : ∀ a ∈ readTableList commas 0 ts, a.isReadAgain tokens = false) :
    ∀ a ∈ readTableList commas 0 ts, ∀ t ∈ after, a.reach tokens ≤ t.start := by
  induction ts using readTableList_induction commas
    generalizing before inside with
  | empty ts h =>
    rw [h]
    exact fun a ha => absurd ha List.not_mem_nil
  | last only list table used honly hread h =>
    rw [h] at honce ⊢
    intro a ha
    rw [List.mem_singleton.1 ha]
    exact (front_before_head haligned hsplit hinside honly hread
      (honce table (by simp)) hhead hlist).1
  | next only taken comma more table honly hcommas hread hcomma h ih =>
    rw [h] at honce ⊢
    obtain ⟨hreach, hbehind⟩ :=
      front_before_head haligned hsplit hinside honly hread
        (honce table List.mem_cons_self) hhead hlist
    rw [List.drop_left] at hbehind
    intro a ha
    rcases List.mem_cons.1 ha with rfl | ha
    · exact hreach
    -- The list goes on behind a comma, which is neither the head nor what the
    -- head reads.
    · rcases hbehind with ⟨_ | ⟨_, inside'⟩, hmore⟩ | rfl
      · rw [(List.cons.inj hmore).1, Token.kind_of_headsTables hhead] at hcomma
        cases hcomma
      · have hsplit' : tokens
            = (before ++ only ++ taken ++ [comma]) ++ more := by
          rw [hsplit]
          simp
        exact ih hsplit' (List.cons.inj hmore).2
          (fun b hb => honce b (List.mem_cons_of_mem table hb)) a ha
      · have hname := (readTableList_head_word hlist).1
        simp [Token.isName, hcomma] at hname

end Heads

/-! ## All lists -/

/-- All tables stand one behind the other, if none of them is read again. -/
theorem tableRefsFrom_apart {text : Text} {tokens : List Token}
    (haligned : Aligned text tokens) {previous : Option Token}
    {calls : List Bool} {before ts : List Token}
    (hsplit : tokens = before ++ ts)
    (honce : ∀ a ∈ tableRefsFrom previous calls ts,
      a.isReadAgain tokens = false) :
    (tableRefsFrom previous calls ts).Pairwise fun a b =>
      a.reach tokens ≤ b.start := by
  induction ts generalizing previous calls before with
  | nil => exact List.Pairwise.nil
  | cons t ts ih =>
    have hsplit' : tokens = (before ++ [t]) ++ ts := by
      rw [hsplit, List.append_assoc, List.singleton_append]
    rcases tableRefsFrom_step previous calls t ts
      with ⟨-, -, hstep⟩ | ⟨calls', hstep⟩
    · rw [hstep] at honce ⊢
      have hhere : ∀ a ∈ readTableList (t.isKeyword "FROM") 0 ts,
          a.isReadAgain tokens = false :=
        fun a ha => honce a (List.mem_append_left _ ha)
      refine List.pairwise_append.2
        ⟨readTableList_apart haligned _ hsplit', ?_, ?_⟩
      · exact ih hsplit' fun a ha => honce a (List.mem_append_right _ ha)
      · intro a ha b hb
        obtain ⟨inside, head, after, hinside, hhead, hlist⟩ :=
          head_of_mem_tableRefsFrom hb
        obtain ⟨u, hu, hstart⟩ :=
          List.mem_map.1
            ((readTableList_starts _ after).subset (List.mem_map_of_mem hlist))
        rw [← hstart]
        exact readTableList_before_head haligned hsplit' hinside hhead
          (List.ne_nil_of_mem hlist) hhere a ha u hu
    · rw [hstep] at honce ⊢
      exact ih hsplit' honce

/-! ## Heads in a path -/

/-- No token opens or closes a parenthesis. -/
def NoParens (tokens : List Token) : Prop :=
  ∀ t ∈ tokens, t.kind ≠ .leftParen ∧ t.kind ≠ .rightParen

namespace NoParens

variable {tokens front back : List Token}

theorem append (hfront : NoParens front)
    (hback : NoParens back) : NoParens (front ++ back) :=
  fun t ht => (List.mem_append.1 ht).elim (hfront t) (hback t)

theorem of_names
    (h : ∀ t ∈ tokens, t.isName = true ∨ t.kind = .dot) : NoParens tokens := by
  intro t ht
  have hkind := h t ht
  rw [Token.isName, Bool.or_eq_true, beq_iff_eq, beq_iff_eq] at hkind
  rcases hkind with (hkind | hkind) | hkind <;> rw [hkind] <;> decide

theorem of_isKeyword {keyword : String}
    (h : ∀ t ∈ tokens, t.isKeyword keyword = true) : NoParens tokens :=
  of_names fun t ht => Or.inl (Token.isName_of_isKeyword (h t ht))

end NoParens

/-- A reference takes names and dots. -/
theorem readTableRef_noParens {tokens : List Token} {table : TableRef}
    {used : Nat} (h : readTableRef tokens = some (table, used)) :
    NoParens (tokens.take used) := by
  obtain ⟨path, following, rfl, rfl, hreads⟩ := readTableRef_parts h
  obtain ⟨found, halias, -⟩ := readAlias_reads following
  rw [List.take_length_add_append]
  refine NoParens.append (.of_names (isName_or_dot_of_path hreads.spelled))
    (.of_names fun t ht => Or.inl ?_)
  exact halias.isName t ht

/-- Between the head of a list and the path of one of its tables there are no
parentheses. -/
theorem place_of_mem_readTableList {commas : Bool} {ts : List Token}
    {table : TableRef} (h : table ∈ readTableList commas 0 ts) :
    ∃ between path following,
      ReadIn ts between path following table ∧ NoParens between := by
  induction ts using readTableList_induction commas with
  | empty ts hempty =>
    rw [hempty] at h
    cases h
  | last only list front used honly hread hlist =>
    rw [hlist, List.mem_singleton] at h
    obtain ⟨path, following, -, hplace⟩ := ReadIn.of_list only hread
    exact ⟨only, path, following, h ▸ hplace, .of_isKeyword honly⟩
  | next only taken comma more front honly hcommas hread hcomma hlist ih =>
    rw [hlist, List.mem_cons] at h
    rcases h with rfl | h
    · obtain ⟨path, following, -, hplace⟩ := ReadIn.of_list only hread
      exact ⟨only, path, following, hplace, .of_isKeyword honly⟩
    · obtain ⟨between, path, following, hplace, hbetween⟩ := ih h
      have htaken := readTableRef_noParens hread
      rw [List.take_left] at htaken
      have hmark : NoParens [comma] :=
        fun t ht => by rw [List.mem_singleton.1 ht, hcomma]; decide
      refine ⟨only ++ taken ++ [comma] ++ between, path, following, ?_, ?_⟩
      · have hmore := hplace.append_left (only ++ taken ++ [comma])
        rwa [show only ++ taken ++ [comma] ++ more
          = only ++ (taken ++ comma :: more) by simp] at hmore
      · exact
          (((NoParens.of_isKeyword honly).append htaken).append hmark).append
          hbetween

theorem tableRefsFrom_cons {t : Token}
    (h : t.kind ≠ .leftParen ∧ t.kind ≠ .rightParen) (previous : Option Token)
    (calls : List Bool) (ts : List Token) :
    tableRefsFrom previous calls (t :: ts)
      = (if t.headsTables && calls.head? != some true then
            readTableList (t.isKeyword "FROM") 0 ts
          else []) ++ tableRefsFrom (some t) calls ts := by
  rw [tableRefsFrom]
  split
  · exact absurd ‹_› h.1
  · exact absurd ‹_› h.2
  · rfl

/-- A head reads its tables also if it stands inside a list, as no parenthesis
has been opened since. -/
theorem mem_tableRefsFrom_of_head {calls : List Bool}
    (hcalls : calls.head? ≠ some true) {inside after : List Token}
    {head : Token} (hinside : NoParens inside) (hhead : head.headsTables = true)
    {table : TableRef}
    (h : table ∈ readTableList (head.isKeyword "FROM") 0 after)
    (previous : Option Token) :
    table ∈ tableRefsFrom previous calls (inside ++ head :: after) := by
  induction inside generalizing previous with
  | nil =>
    have hkind : head.kind ≠ .leftParen ∧ head.kind ≠ .rightParen := by
      rw [Token.kind_of_headsTables hhead]
      decide
    rw [List.nil_append, tableRefsFrom_cons hkind,
      if_pos (by simp [hhead, hcalls])]
    exact List.mem_append_left _ h
  | cons t ts ih =>
    rw [List.cons_append, tableRefsFrom_cons (hinside t List.mem_cons_self)]
    exact List.mem_append_right _
      (ih (fun u hu => hinside u (List.mem_cons_of_mem t hu)) (some t))

/-- Where a table is read; and if its path ends in a head, the tables behind the
path are read too. -/
theorem place_of_mem_tableRefsFrom {previous : Option Token} {calls : List Bool}
    {ts : List Token} {table : TableRef}
    (h : table ∈ tableRefsFrom previous calls ts) :
    ∃ before path following, ReadIn ts before path following table ∧
      ∀ inside head, path = inside ++ [head] → head.headsTables = true →
        ∀ b ∈ readTableList (head.isKeyword "FROM") 0 following,
          b ∈ tableRefsFrom previous calls ts := by
  induction ts generalizing previous calls with
  | nil => cases h
  | cons t ts ih =>
    have hlater : ∀ {calls'}, table ∈ tableRefsFrom (some t) calls' ts →
        (∀ b ∈ tableRefsFrom (some t) calls' ts,
          b ∈ tableRefsFrom previous calls (t :: ts)) →
        ∃ before path following, ReadIn (t :: ts) before path following table ∧
          ∀ inside head, path = inside ++ [head] → head.headsTables = true →
            ∀ b ∈ readTableList (head.isKeyword "FROM") 0 following,
              b ∈ tableRefsFrom previous calls (t :: ts) := by
      intro calls' hmem hkept
      obtain ⟨before, path, following, hplace, hread⟩ := ih hmem
      exact ⟨t :: before, path, following, hplace.append_left [t],
        fun inside head hpath hhead b hb =>
          hkept b (hread inside head hpath hhead b hb)⟩
    rcases tableRefsFrom_step previous calls t ts
      with ⟨-, hcalls, hstep⟩ | ⟨calls', hstep⟩
    · have hmem := h
      rw [hstep, List.mem_append] at hmem
      rcases hmem with hmem | hmem
      · obtain ⟨between, path, following, hplace, hbetween⟩ :=
          place_of_mem_readTableList hmem
        refine ⟨t :: between, path, following, hplace.append_left [t], ?_⟩
        rintro inside head rfl hhead b hb
        -- From `t` to the end of the path no parenthesis is opened, so the scan
        -- is still inside the same `calls`.
        have hinside : NoParens inside := fun u hu =>
          NoParens.of_names (isName_or_dot_of_path hplace.spelled) u
            (by simp [hu])
        have hread :=
          mem_tableRefsFrom_of_head hcalls (hbetween.append hinside) hhead
            hb (some t)
        rw [show between ++ inside ++ head :: following
          = ts by rw [hplace.split]; simp] at hread
        rw [hstep]
        exact List.mem_append_right _ hread
      · exact hlater hmem fun b hb => by
          rw [hstep]; exact List.mem_append_right _ hb
    · exact hlater (hstep ▸ h) fun b hb => by rwa [hstep]

/-! ## Read once -/

section Once

variable {text : Text} {tokens : List Token} {a b : TableRef}

theorem ReadIn.used_bounds {before path following : List Token}
    (h : ReadIn tokens before path following a)
    (haligned : Aligned text tokens) :
    ∀ t ∈ a.used tokens, a.start ≤ t.start ∧ t.start < a.reach tokens := by
  have hlt := h.start_lt_stop haligned
  have hreach := h.stop_le_reach haligned
  intro t ht
  rcases List.mem_append.1 ht with ht | ht
  · rw [h.path_eq haligned] at ht
    have hbounds := h.bounds haligned t ht
    omega
  · have halias : a.aliasToken? tokens = some t := Option.mem_toList.1 ht
    have hmem := h.aliasToken_mem haligned t halias
    have hstop := h.stop_le_following haligned t hmem
    have hrange := ((h.aligned_following haligned).range t hmem).lt
    refine ⟨by omega, ?_⟩
    rw [TableRef.reach, halias]
    exact hrange

/-- Of two references that stand one behind the other, neither uses a token of
the other's path. -/
theorem unshared_of_reach_le (haligned : Aligned text tokens)
    (ha : a ∈ tableRefs tokens) (hb : b ∈ tableRefs tokens)
    (h : a.reach tokens ≤ b.start) :
    a.start < b.start ∧ a.stop ≤ b.start ∧ TableRef.Unshared tokens a b := by
  obtain ⟨_, _, _, hplace, -⟩ := place_of_mem_tableRefsFrom ha
  obtain ⟨_, _, _, hplace', -⟩ := place_of_mem_tableRefsFrom hb
  have hlt := hplace.start_lt_stop haligned
  have hreach := hplace.stop_le_reach haligned
  have hpath : ∀ {table : TableRef} {t},
      t ∈ table.path tokens → table.start ≤ t.start ∧ t.start < table.stop := by
    intro table t ht
    simpa using (List.mem_filter.1 ht).2
  refine ⟨by omega, by omega, ?_, ?_⟩
  · intro t ht ht'
    have hused := hplace.used_bounds haligned t ht
    have hshared := hpath ht'
    omega
  · intro t ht ht'
    have hused := hplace'.used_bounds haligned t ht
    have hshared := hpath ht'
    omega

theorem mem_readTableList_of_front {t : Token} {ts : List Token} {used : Nat}
    (h : readTableRef (t :: ts) = some (b, used)) (commas : Bool) :
    b ∈ readTableList commas 0 (t :: ts) := by
  have honly : t.isKeyword "ONLY" = false :=
    Token.isKeyword_of_isIdentifier
      (isIdentifier_of_readTableRef (by rw [h]; rfl)) (by decide)
  rw [readTableList]
  simp [honly, h]

/-- An alias that can be read as a table behind a path that ends in a head is
read as one. -/
theorem shared_of_isReadAgain (haligned : Aligned text tokens)
    (ha : a ∈ tableRefs tokens) (hagain : a.isReadAgain tokens = true) :
    ∃ b ∈ tableRefs tokens, a ≠ b ∧ ¬ TableRef.Unshared tokens a b := by
  obtain ⟨before, path, following, hplace, hread⟩ :=
    place_of_mem_tableRefsFrom ha
  rw [TableRef.isReadAgain, hplace.path_eq haligned,
    hplace.behind_eq haligned] at hagain
  simp only [Bool.and_eq_true, beq_iff_eq, Option.any_eq_true] at hagain
  obtain ⟨⟨⟨head, hlast, hhead⟩, halias⟩, hsome⟩ := hagain
  obtain ⟨inside, rfl⟩ := List.getLast?_eq_some_iff.1 hlast
  obtain ⟨⟨b, used⟩, hb⟩ := Option.isSome_iff_exists.1 hsome
  cases following with
  | nil => cases hb
  | cons t rest =>
    -- What is read for the second reference starts right behind the path of
    -- the first.
    obtain ⟨path', following', -, hagain⟩ :=
      ReadIn.of_list (before ++ (inside ++ [head])) hb
    rw [List.append_assoc, ← hplace.split] at hagain
    have ht : t ∈ path' := by
      have hsplit := hplace.split.symm.trans hagain.split
      rw [← List.append_assoc] at hsplit
      have hhead' := congrArg List.head? (List.append_cancel_left hsplit)
      obtain ⟨first, hfirst, -⟩ := Option.map_eq_some_iff.1 hagain.start
      rw [List.head?_append, hfirst] at hhead'
      exact List.mem_of_head? (hfirst.trans hhead'.symm)
    refine ⟨b, hread inside head rfl hhead b (mem_readTableList_of_front hb _),
      ?_, fun hunshared => ?_⟩
    · rintro rfl
      have hbounds := hagain.bounds haligned t ht
      have hbehind := hplace.stop_le_following haligned t List.mem_cons_self
      omega
    · have hused : t ∈ a.used tokens := by
        rw [TableRef.used, halias]
        simp
      exact hunshared.1 t hused (by rwa [hagain.path_eq haligned])

end Once

/-- The path and the alias of a reference are spelled by its tokens. The
references stand one behind the other and share no token iff none of them has a
path that ends in `FROM` or `JOIN` and an alias right behind it that can be
read as a table. -/
theorem references_are_read_once_iff (text : Text) :
    let tokens := tokenize text.sanitize
    (∀ table ∈ tableRefs tokens,
        dottedPath (table.path tokens) = some table.name ∧
          (table.aliasToken? tokens).map Token.name = table.aliasName) ∧
      (ReadOnce tokens ↔
        ∀ table ∈ tableRefs tokens, table.isReadAgain tokens = false) := by
  intro tokens
  have haligned := aligned_tokenize text
  refine ⟨?_, ?_, ?_⟩
  · intro table htable
    obtain ⟨before, path, following, hplace, -⟩ :=
      place_of_mem_tableRefsFrom htable
    exact ⟨by rw [hplace.path_eq haligned, hplace.spelled],
      (hplace.reads_alias haligned).2⟩
  · intro honce a ha
    by_contra hagain
    rw [Bool.not_eq_false] at hagain
    obtain ⟨b, hb, hne, hshared⟩ := shared_of_isReadAgain haligned ha hagain
    have hunshared : (tableRefs tokens).Pairwise (TableRef.Unshared tokens) :=
      honce.imp fun h => h.2.2
    exact hshared (hunshared.forall ha hb hne)
  · intro hagain
    have hapart :=
      tableRefsFrom_apart haligned (List.nil_append tokens).symm hagain
    refine (List.Pairwise.and_mem.1 hapart).imp ?_
    rintro a b ⟨ha, hb, hle⟩
    exact unshared_of_reach_le haligned ha hb hle

/-- A path that ends in `FROM`, with its alias behind an `AS`. -/
def fromNamedQuery : Text :=
  "SELECT 1 FROM a.from AS b, ONLY c d JOIN e.join ON f".toList

theorem references_are_read_once_iff_fromNamedQuery :
    let tokens := tokenize fromNamedQuery.sanitize
    tableRefs tokens
        = [⟨"a.from", some "b", 14, 20⟩, ⟨"c", some "d", 32, 33⟩,
          ⟨"e.join", none, 41, 47⟩] ∧
      ReadOnce tokens := by
  intro tokens
  have hagain : ∀ table ∈ tableRefs tokens,
      table.isReadAgain tokens = false := by decide +kernel
  exact ⟨by decide +kernel,
    (references_are_read_once_iff fromNamedQuery).2.2 hagain⟩

/-- The alias stands right behind the path. -/
def rereadQuery : Text := "SELECT 1 FROM a.from b, c".toList

theorem alias_is_reread_rereadQuery :
    let tokens := tokenize rereadQuery.sanitize
    (tableRefs tokens).map (fun table => (table.start, table.stop))
        = [(14, 20), (24, 25), (21, 22), (24, 25)] ∧
      ¬ ReadOnce tokens := by
  decide +kernel

end QueryAssist
