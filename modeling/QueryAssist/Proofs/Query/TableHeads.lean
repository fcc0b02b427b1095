import Mathlib.Data.List.Nodup
import QueryAssist.Finding.Structure
import QueryAssist.Proofs.Query.TableParts

/-!
# Table references start at different tokens

Each `FROM` and each `JOIN` reads the tables of its own list. The lists of two
`FROM` overlap only if the second `FROM` is part of a path in the list of the
first, that is stands behind a dot. The table of a `JOIN` stands right behind
it, where no table of another list starts. So as long as no `FROM` stands behind
a dot, no table is read twice.
-/

namespace QueryAssist

/-! ## Keywords -/

namespace Token

variable {t : Token} {keyword : String}

theorem kind_of_isKeyword
    (h : t.isKeyword keyword = true) : t.kind = .word := by
  simp only [isKeyword, isOneOf, Bool.and_eq_true, beq_iff_eq] at h
  exact h.1

theorem foldAscii_of_isKeyword (h : t.isKeyword keyword = true) :
    Text.foldAscii t.text = keyword := by
  simpa [isKeyword, isOneOf, Keyword.isOneOf, kind_of_isKeyword h] using h

/-- A token is one keyword at most. -/
theorem isKeyword_of_ne (h : t.isKeyword keyword = true) {other : String}
    (hne : keyword ≠ other) : t.isKeyword other = false := by
  simp [isKeyword, isOneOf, Keyword.isOneOf, foldAscii_of_isKeyword h, hne]

theorem isKeyword_of_kind (h : t.kind ≠ .word) :
    t.isKeyword keyword = false := by
  simp [isKeyword, isOneOf, h]

theorem isKeyword_of_isIdentifier (h : t.isIdentifier = true)
    (hreserved : keyword ∈ Keyword.reserved) : t.isKeyword keyword = false := by
  by_contra hkeyword
  rw [Bool.not_eq_false] at hkeyword
  simp [isIdentifier, kind_of_isKeyword hkeyword, Keyword.isReserved,
    Keyword.isOneOf, foldAscii_of_isKeyword hkeyword, hreserved] at h

theorem isKeyword_of_not_isClause (h : Keyword.isClause t.text = false)
    (hclause : keyword ∈ Keyword.clauses) : t.isKeyword keyword = false := by
  by_contra hkeyword
  rw [Bool.not_eq_false] at hkeyword
  simp [Keyword.isClause, Keyword.isOneOf, foldAscii_of_isKeyword hkeyword,
    hclause] at h

theorem isName_of_isKeyword
    (h : t.isKeyword keyword = true) : t.isName = true := by
  simp [isName, kind_of_isKeyword h]

theorem isName_of_isIdentifier
    (h : t.isIdentifier = true) : t.isName = true := by
  rw [isIdentifier] at h
  split at h
  · simp [isName, *]
  · simp [isName, *]
  · cases h

/-- Whether the token is one behind which tables are named. -/
def headsTables (t : Token) : Bool := t.isKeyword "FROM" || t.isKeyword "JOIN"

end Token

/-! ## What a reference takes -/

/-- No `FROM` stands right behind a dot, as part of a path. -/
def NoFromBehindDot (tokens : List Token) : Prop :=
  ∀ pair ∈ Finding.neighbours tokens,
    pair.1.kind = .dot → pair.2.isKeyword "FROM" = false

instance (tokens : List Token) : Decidable (NoFromBehindDot tokens) :=
  inferInstanceAs (Decidable
    (∀ pair ∈ Finding.neighbours tokens,
      pair.1.kind = .dot → pair.2.isKeyword "FROM" = false))

theorem NoFromBehindDot.tail {t : Token} {ts : List Token}
    (h : NoFromBehindDot (t :: ts)) : NoFromBehindDot ts := by
  cases ts with
  | nil => exact fun pair hpair => absurd hpair List.not_mem_nil
  | cons next rest =>
    exact fun pair hpair => h pair (List.mem_cons_of_mem (t, next) hpair)

theorem NoFromBehindDot.drop {tokens : List Token} (h : NoFromBehindDot tokens)
    (n : Nat) : NoFromBehindDot (tokens.drop n) := by
  induction n generalizing tokens with
  | zero => exact h
  | succ n ih =>
    cases tokens with
    | nil => exact h
    | cons t ts => exact ih h.tail

theorem path_no_from {path following : List Token} {name : String}
    (h : dottedPath path = some name)
    (hclear : NoFromBehindDot (path ++ following))
    (hfirst : ∀ t ∈ path.head?, t.isKeyword "FROM" = false) :
    ∀ t ∈ path, t.isKeyword "FROM" = false := by
  obtain ⟨names, hnames, -⟩ := Option.map_eq_some_iff.1 h
  clear h
  fun_induction pathNames path generalizing names with
  | case1 => simp
  | case2 t hname => exact fun u hu => List.mem_singleton.1 hu ▸ hfirst t rfl
  | case3 t hname => cases hnames
  | case4 t dot rest hpath ih =>
    simp only [Bool.and_eq_true, beq_iff_eq] at hpath
    obtain ⟨more, hmore, -⟩ := Option.map_eq_some_iff.1 hnames
    have hnext : ∀ u ∈ rest.head?, u.isKeyword "FROM" = false := by
      intro u hu
      obtain ⟨behind, rfl⟩ := List.head?_eq_some_iff.1 hu
      exact hclear.tail (dot, u) List.mem_cons_self hpath.2
    intro u hu
    rcases List.mem_cons.1 hu with rfl | hu
    · exact hfirst u rfl
    · rcases List.mem_cons.1 hu with rfl | hu
      · exact Token.isKeyword_of_kind (by simp [hpath.2])
      · exact ih hclear.tail.tail hnext more hmore u hu
  | case5 t dot rest hpath => cases hnames

/-- What is taken for an alias starts no clause. -/
theorem ReadsAlias.not_keyword {tokens : List Token} {found : Option Token}
    {used : Nat} (h : ReadsAlias tokens found used) {keyword : String}
    (hclause : keyword ∈ Keyword.clauses) :
    ∀ t ∈ tokens.take used, t.isKeyword keyword = false := by
  have has : ∀ {as : Token},
      as.isKeyword "AS" = true → as.isKeyword keyword = false := by
    intro as hkeyword
    refine Token.isKeyword_of_ne hkeyword ?_
    rintro rfl
    exact absurd hclause (by decide)
  cases h with
  | absent => simp
  | missing rest hkeyword => simp [has hkeyword]
  | named rest hkeyword hname hword =>
    simp [has hkeyword, Token.isKeyword_of_not_isClause hword hclause]
  | bare rest hname hword =>
    simp [Token.isKeyword_of_not_isClause hword hclause]

theorem ReadsAlias.isName {tokens : List Token} {found : Option Token}
    {used : Nat} (h : ReadsAlias tokens found used) :
    ∀ t ∈ tokens.take used, t.isName = true := by
  cases h with
  | absent => simp
  | missing rest has => simp [Token.isName_of_isKeyword has]
  | named rest has hname hclause => simp [Token.isName_of_isKeyword has, hname]
  | bare rest hname hclause => simp [Token.isName_of_isIdentifier hname]

theorem readAlias_no_from (tokens : List Token) :
    ∀ t ∈ tokens.take (readAlias tokens).2, t.isKeyword "FROM" = false := by
  obtain ⟨found, hreads, -⟩ := readAlias_reads tokens
  exact hreads.not_keyword (by decide)

/-- A reference starts with its first token, and takes no `FROM` that stands
behind no dot. -/
theorem readTableRef_eq_some {tokens : List Token} {table : TableRef}
    {used : Nat} (h : readTableRef tokens = some (table, used)) :
    ∃ first rest, tokens = first :: rest ∧ table.start = first.start ∧
      0 < used ∧
      (NoFromBehindDot tokens →
        ∀ t ∈ tokens.take used, t.isKeyword "FROM" = false) := by
  obtain ⟨path, following, rfl, rfl, hreads⟩ := readTableRef_parts h
  obtain ⟨first, hhead, hstart⟩ := Option.map_eq_some_iff.1 hreads.start
  obtain ⟨rest, rfl⟩ := List.head?_eq_some_iff.1 hhead
  have hidentifier : first.isIdentifier = true :=
    isIdentifier_of_readTableRef (Option.isSome_iff_exists.2 ⟨_, h⟩)
  refine ⟨first, rest ++ following, rfl, hstart.symm,
    by rw [List.length_cons]; omega, ?_⟩
  intro hclear t ht
  rw [List.take_length_add_append] at ht
  rcases List.mem_append.1 ht with ht | ht
  · refine path_no_from hreads.spelled hclear (fun u hu => ?_) t ht
    rw [← Option.some.inj hu]
    exact Token.isKeyword_of_isIdentifier hidentifier (by decide)
  · exact readAlias_no_from following t ht

/-! ## Lists -/

theorem readTableList_drop (commas : Bool) (skip : Nat) (tokens : List Token) :
    readTableList commas skip tokens
      = readTableList commas 0 (tokens.drop skip) := by
  induction tokens generalizing skip with
  | nil => simp [readTableList]
  | cons t ts ih =>
    cases skip with
    | zero => rfl
    | succ n => rw [readTableList, ih, List.drop_succ_cons]

/-- A list starts with a table, behind an `ONLY` or not, and where it goes on, a
comma and a list follow. -/
theorem readTableList_cases {commas : Bool} {tokens : List Token}
    (h : readTableList commas 0 tokens ≠ []) :
    ∃ only list table used, tokens = only ++ list ∧
      (∀ t ∈ only, t.isKeyword "ONLY" = true) ∧
      readTableRef list = some (table, used) ∧
      (readTableList commas 0 tokens = [table] ∨
        commas = true ∧
          ∃ comma more, list.drop used = comma :: more ∧ comma.kind = .comma ∧
            readTableList commas 0 tokens
              = table :: readTableList commas 0 more) := by
  cases tokens with
  | nil => exact absurd rfl h
  | cons t ts =>
    rw [readTableList] at h ⊢
    generalize honly : (if t.isKeyword "ONLY" = true then 1 else 0) = n at h ⊢
    simp only at h ⊢
    cases hread : readTableRef ((t :: ts).drop n) with
    | none => simp [hread] at h
    | some found =>
      obtain ⟨table, used⟩ := found
      refine ⟨(t :: ts).take n, (t :: ts).drop n, table, used,
        (List.take_append_drop _ _).symm, ?_, hread, ?_⟩
      · intro u hu
        split at honly
        · subst honly
          rwa [List.mem_singleton.1 hu]
        · subst honly
          cases hu
      · simp only
        split
        · rename_i hgoes
          rw [Bool.and_eq_true] at hgoes
          rw [List.drop_drop]
          cases hrest : (t :: ts).drop (n + used) with
          | nil => simp [hrest] at hgoes
          | cons comma more =>
            have hmore : more = ts.drop (n + used) := by
              have htail := congrArg List.tail hrest
              rwa [List.tail_drop, List.drop_succ_cons, List.tail_cons,
                eq_comm] at htail
            rw [hrest] at hgoes
            exact .inr
              ⟨hgoes.1, comma, more, rfl, by simpa using hgoes.2,
                by rw [readTableList_drop, hmore]⟩
        · exact .inl rfl

/-- Induction along a list: it is empty, or has one table, or goes on
behind a comma. -/
theorem readTableList_induction (commas : Bool) {motive : List Token → Prop}
    (empty : ∀ tokens, readTableList commas 0 tokens = [] → motive tokens)
    (last : ∀ only list table used, (∀ t ∈ only, t.isKeyword "ONLY" = true) →
      readTableRef list = some (table, used) →
      readTableList commas 0 (only ++ list) = [table] → motive (only ++ list))
    (next : ∀ only taken comma more table,
      (∀ t ∈ only, t.isKeyword "ONLY" = true) → commas = true →
        readTableRef (taken ++ comma :: more) = some (table, taken.length) →
        comma.kind = .comma →
        readTableList commas 0 (only ++ (taken ++ comma :: more))
          = table :: readTableList commas 0 more →
        motive more → motive (only ++ (taken ++ comma :: more)))
    (tokens : List Token) : motive tokens := by
  induction hlength : tokens.length using Nat.strongRecOn
    generalizing tokens with
  | _ n ih =>
    by_cases hempty : readTableList commas 0 tokens = []
    · exact empty tokens hempty
    · obtain ⟨only, list, table, used, rfl, honly, hread, hlist⟩ :=
        readTableList_cases hempty
      rcases hlist with hlist | ⟨hcommas, comma, more, hmore, hcomma, hlist⟩
      · exact last only list table used honly hread hlist
      · have hle := readTableRef_le hread
        obtain ⟨taken, rfl, rfl⟩ : ∃ taken,
            list = taken ++ comma :: more ∧ used = taken.length :=
          ⟨list.take used, by rw [← hmore, List.take_append_drop],
            by rw [List.length_take, Nat.min_eq_left hle]⟩
        have hless : more.length < n := by
          rw [← hlength]
          simp only [List.length_append, List.length_cons]
          omega
        exact next only taken comma more table honly hcommas hread hcomma hlist
          (ih more.length hless more rfl)

theorem readTableList_starts (commas : Bool) (tokens : List Token) :
    ((readTableList commas 0 tokens).map TableRef.start).Sublist
      (tokens.map Token.start) := by
  have hskip : ∀ only list : List Token,
      (list.map Token.start).Sublist ((only ++ list).map Token.start) :=
    fun only list => (List.sublist_append_right only list).map Token.start
  induction tokens using readTableList_induction commas with
  | empty tokens h =>
    rw [h]
    exact List.nil_sublist _
  | last only list table used honly hread h =>
    obtain ⟨first, rest, rfl, hstart, -, -⟩ := readTableRef_eq_some hread
    refine List.Sublist.trans ?_ (hskip only (first :: rest))
    rw [h, List.map_cons, List.map_cons, hstart]
    exact (List.nil_sublist _).cons_cons _
  | next only taken comma more table honly hcommas hread hcomma h ih =>
    obtain ⟨first, rest, hlist, hstart, hused, -⟩ := readTableRef_eq_some hread
    have hmore : more.Sublist rest := by
      have htail := congrArg (List.drop taken.length) hlist
      rw [List.drop_left, show taken.length = taken.length - 1 + 1 by omega,
        List.drop_succ_cons] at htail
      exact (List.sublist_cons_self comma more).trans
        (htail ▸ List.drop_sublist _ _)
    rw [hlist] at h ⊢
    refine List.Sublist.trans ?_ (hskip only (first :: rest))
    rw [h, List.map_cons, List.map_cons, hstart]
    exact (ih.trans (hmore.map Token.start)).cons_cons _

/-- The last token that is no `ONLY`. -/
def lead (tokens : List Token) : Option Token :=
  tokens.reverse.find? (!·.isKeyword "ONLY")

theorem lead_append_cons {t : Token} (h : t.isKeyword "ONLY" = false)
    (before after : List Token) :
    lead (before ++ t :: after) = some ((lead after).getD t) := by
  rw [lead, lead, List.reverse_append, List.reverse_cons, List.append_assoc,
    List.find?_append]
  cases after.reverse.find? (!·.isKeyword "ONLY") with
  | none => simp [h]
  | some last => rfl

theorem lead_of_only {tokens : List Token}
    (h : ∀ t ∈ tokens, t.isKeyword "ONLY" = true) : lead tokens = none := by
  rw [lead, List.find?_eq_none]
  intro t ht
  simp [h t (List.mem_reverse.1 ht)]

/-- What may stand between the head of a list and the first token of one of
its tables. -/
structure Leads (commas : Bool) (between : List Token) : Prop where
  no_from : ∀ t ∈ between, t.isKeyword "FROM" = false
  behind_comma : ∀ t ∈ lead between, t.kind = .comma
  only : commas = false → ∀ t ∈ between, t.isKeyword "ONLY" = true

theorem mem_readTableList {commas : Bool} {tokens : List Token}
    (hclear : NoFromBehindDot tokens) {table : TableRef}
    (h : table ∈ readTableList commas 0 tokens) :
    ∃ between first rest, tokens = between ++ first :: rest ∧
      table.start = first.start ∧ Leads commas between := by
  have hfront : ∀ {only : List Token},
      (∀ t ∈ only, t.isKeyword "ONLY" = true) → Leads commas only := by
    intro only honly
    refine ⟨?_, ?_, fun _ => honly⟩
    · exact fun t ht => Token.isKeyword_of_ne (honly t ht) (by decide)
    · rw [lead_of_only honly]
      exact fun t ht => absurd ht (Option.not_mem_none t)
  induction tokens using readTableList_induction commas with
  | empty tokens hempty =>
    rw [hempty] at h
    cases h
  | last only list front used honly hread hlist =>
    rw [hlist, List.mem_singleton] at h
    obtain ⟨first, rest, rfl, hstart, -, -⟩ := readTableRef_eq_some hread
    exact ⟨only, first, rest, rfl, h ▸ hstart, hfront honly⟩
  | next only taken comma more front honly hcommas hread hcomma hlist ih =>
    obtain ⟨first, rest, hsplit, hstart, -, htaken⟩ :=
      readTableRef_eq_some hread
    rw [hlist, List.mem_cons] at h
    rcases h with rfl | h
    · exact ⟨only, first, rest, by rw [hsplit], hstart, hfront honly⟩
    · have hclear' : NoFromBehindDot (taken ++ comma :: more) := by
        have hdrop := hclear.drop only.length
        rwa [List.drop_left] at hdrop
      have hclear'' : NoFromBehindDot more := by
        have hdrop := hclear'.drop taken.length
        rw [List.drop_left] at hdrop
        exact hdrop.tail
      have hpassed := htaken hclear'
      rw [List.take_left] at hpassed
      obtain ⟨between, start, after, rfl, hbegin, hleads⟩ := ih hclear'' h
      have hnever : comma.isKeyword "ONLY" = false :=
        Token.isKeyword_of_kind (by simp [hcomma])
      refine ⟨only ++ taken ++ comma :: between, start, after, by simp, hbegin,
        ?_, ?_, ?_⟩
      · intro t ht
        rcases List.mem_append.1 ht with ht | ht
        · rcases List.mem_append.1 ht with ht | ht
          · exact (hfront honly).no_from t ht
          · exact hpassed t ht
        · rcases List.mem_cons.1 ht with rfl | ht
          · exact Token.isKeyword_of_kind (by simp [hcomma])
          · exact hleads.no_from t ht
      · rw [lead_append_cons hnever]
        intro t ht
        cases hlead : lead between with
        | none =>
          rw [hlead] at ht
          rw [← Option.some.inj ht]
          exact hcomma
        | some last =>
          rw [hlead] at ht
          rw [← Option.some.inj ht]
          exact hleads.behind_comma last hlead
      · intro hfalse
        rw [hcommas] at hfalse
        cases hfalse

/-! ## All lists -/

/-- What stands before a token is known from where the token starts. -/
theorem before_of_start {tokens before before' rest rest' : List Token}
    {t t' : Token} (hnodup : (tokens.map Token.start).Nodup)
    (h : tokens = before ++ t :: rest) (h' : tokens = before' ++ t' :: rest')
    (hstart : t.start = t'.start) : before = before' := by
  have hmem : t ∈ tokens := by rw [h]; simp
  have hmem' : t' ∈ tokens := by rw [h']; simp
  have hsame : t = t' := List.inj_on_of_nodup_map hnodup hmem hmem' hstart
  have honce := hnodup.of_map
  rw [h, List.nodup_append', List.nodup_cons] at honce
  have hbefore : t' ∉ before :=
    fun hin => honce.2.2 hin (by rw [hsame]; exact List.mem_cons_self)
  have hrest : t' ∉ rest := by rw [← hsame]; exact honce.2.1.1
  exact ((List.append_cons_inj_of_notMem hbefore hrest).1 (h.symm.trans h')).1

/-- A token is a head and reads its list, or is passed over. -/
theorem tableRefsFrom_step (previous : Option Token) (calls : List Bool)
    (t : Token) (ts : List Token) :
    (t.headsTables = true ∧ calls.head? ≠ some true ∧
        tableRefsFrom previous calls (t :: ts)
          = readTableList (t.isKeyword "FROM") 0 ts
            ++ tableRefsFrom (some t) calls ts) ∨
      ∃ calls',
        tableRefsFrom previous calls (t :: ts)
          = tableRefsFrom (some t) calls' ts := by
  rw [tableRefsFrom]
  split
  · exact Or.inr ⟨_, rfl⟩
  · exact Or.inr ⟨_, rfl⟩
  · simp only
    split
    · rename_i hhead
      rw [Bool.and_eq_true, bne_iff_ne] at hhead
      exact Or.inl ⟨hhead.1, hhead.2, rfl⟩
    · exact Or.inr ⟨calls, List.nil_append _⟩

/-- Each table stands in the list of a head. -/
theorem head_of_mem_tableRefsFrom {previous : Option Token} {calls : List Bool}
    {tokens : List Token} {table : TableRef}
    (h : table ∈ tableRefsFrom previous calls tokens) :
    ∃ before head after, tokens = before ++ head :: after ∧
      head.headsTables = true ∧
      table ∈ readTableList (head.isKeyword "FROM") 0 after := by
  induction tokens generalizing previous calls with
  | nil => cases h
  | cons t ts ih =>
    have hlater : ∀ {calls'}, table ∈ tableRefsFrom (some t) calls' ts →
        ∃ before head after, t :: ts = before ++ head :: after ∧
          head.headsTables = true ∧
          table ∈ readTableList (head.isKeyword "FROM") 0 after := by
      intro calls' hmem
      obtain ⟨before, head, after, rfl, hfound⟩ := ih hmem
      exact ⟨t :: before, head, after, rfl, hfound⟩
    rcases tableRefsFrom_step previous calls t ts
      with ⟨hhead, -, hstep⟩ | ⟨calls', hstep⟩
    · rw [hstep, List.mem_append] at h
      rcases h with h | h
      · exact ⟨[], t, ts, rfl, hhead, h⟩
      · exact hlater h
    · exact hlater (hstep ▸ h)

theorem mem_tableRefsFrom {previous : Option Token} {calls : List Bool}
    {tokens : List Token} (hclear : NoFromBehindDot tokens) {table : TableRef}
    (h : table ∈ tableRefsFrom previous calls tokens) :
    ∃ before head between first rest,
      tokens = before ++ head :: (between ++ first :: rest) ∧
        table.start = first.start ∧ head.headsTables = true ∧
        Leads (head.isKeyword "FROM") between := by
  obtain ⟨before, head, after, rfl, hhead, hmem⟩ := head_of_mem_tableRefsFrom h
  have hclear' : NoFromBehindDot after := by
    have hdrop := hclear.drop before.length
    rw [List.drop_left] at hdrop
    exact hdrop.tail
  obtain ⟨between, first, rest, rfl, hstart, hleads⟩ :=
    mem_readTableList hclear' hmem
  exact ⟨before, head, between, first, rest, rfl, hstart, hhead, hleads⟩

/-- What leads from a head to a table holds no other head that leads to
the table too. -/
theorem Leads.not_head {commas : Bool} {before between : List Token}
    {head : Token} (h : Leads commas (before ++ head :: between))
    (hhead : head.headsTables = true)
    (hleads : Leads (head.isKeyword "FROM") between) : False := by
  rcases Bool.or_eq_true_iff.1 hhead with hfrom | hjoin
  · have hno := h.no_from head (by simp)
    rw [hfrom] at hno
    cases hno
  -- Only `ONLY` stands between a `JOIN` and its table, so the `JOIN` would have
  -- to be a comma.
  · have hnever : head.isKeyword "ONLY" = false :=
      Token.isKeyword_of_ne hjoin (by decide)
    have hnone :=
      lead_of_only (hleads.only (Token.isKeyword_of_ne hjoin (by decide)))
    have hcomma :=
      h.behind_comma head (by rw [lead_append_cons hnever, hnone]; rfl)
    rw [Token.kind_of_isKeyword hjoin] at hcomma
    cases hcomma

/-- The tables start at different tokens if no `FROM` stands behind a dot. -/
theorem tableRefsFrom_starts_nodup {tokens : List Token}
    (hclear : NoFromBehindDot tokens) (hnodup : (tokens.map Token.start).Nodup)
    (previous : Option Token) (calls : List Bool) :
    ((tableRefsFrom previous calls tokens).map TableRef.start).Nodup := by
  induction tokens generalizing previous calls with
  | nil => exact List.nodup_nil
  | cons t ts ih =>
    have hrest : (ts.map Token.start).Nodup := (List.nodup_cons.1 hnodup).2
    rcases tableRefsFrom_step previous calls t ts
      with ⟨-, -, hstep⟩ | ⟨calls', hstep⟩
    · rw [hstep, List.map_append, List.nodup_append']
      refine ⟨hrest.sublist (readTableList_starts _ ts),
        ih hclear.tail hrest _ _, ?_⟩
      intro start hhere hlater
      obtain ⟨table, htable, rfl⟩ := List.mem_map.1 hhere
      obtain ⟨table', htable', hsame⟩ := List.mem_map.1 hlater
      obtain ⟨between, first, rest, hts, hstart, hleads⟩ :=
        mem_readTableList hclear.tail htable
      obtain ⟨before, head, between', first', rest', hts', hstart', hhead,
        hleads'⟩ :=
        mem_tableRefsFrom hclear.tail htable'
      have hbetween : between = before ++ head :: between' := by
        have hsplit : ts = (before ++ head :: between') ++ first' :: rest' := by
          rw [hts', List.append_assoc, List.cons_append]
        exact before_of_start hrest hts hsplit
          (by rw [← hstart, ← hstart', hsame])
      rw [hbetween] at hleads
      exact hleads.not_head hhead hleads'
    · rw [hstep]
      exact ih hclear.tail hrest _ _

end QueryAssist
