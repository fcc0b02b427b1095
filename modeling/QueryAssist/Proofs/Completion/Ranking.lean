import Mathlib.Algebra.Ring.Nat
import Mathlib.Data.List.Basic
import QueryAssist.Proofs.Completion.Agreement

/-!
# Completions are ranked

The list of completions repeats nothing, goes from what the document and the
catalog name over the words of the dialect to its templates, and the texts by
which it is sorted increase along it.

Candidates are collected in this order in every context, and leaving out
repetitions keeps it. The text of a place is a digit for the tier and the place
in five digits, so as long as five digits are enough the texts compare as the
pairs of numbers do.
-/

namespace QueryAssist

open Text

/-! ## Nothing is repeated -/

theorem distinctCandidates_sublist (seen candidates : List Candidate) :
    (distinctCandidates seen candidates).Sublist candidates := by
  induction candidates generalizing seen with
  | nil => exact List.Sublist.slnil
  | cons c rest ih =>
    rw [distinctCandidates]
    split
    · exact (ih seen).cons c
    · exact (ih (c :: seen)).cons_cons c

theorem not_repeats_of_mem_distinctCandidates {seen candidates : List Candidate}
    {c : Candidate} (h : c ∈ distinctCandidates seen candidates) :
    ∀ earlier ∈ seen, earlier.repeats c = false := by
  induction candidates generalizing seen with
  | nil => cases h
  | cons first rest ih =>
    rw [distinctCandidates] at h
    split at h
    · exact ih h
    · rename_i hnew
      rcases List.mem_cons.1 h with rfl | hrest
      · intro earlier hmem
        rw [Bool.eq_false_iff]
        exact fun hrepeats =>
          hnew (List.any_eq_true.2 ⟨earlier, hmem, hrepeats⟩)
      · exact fun earlier hmem =>
          ih hrest earlier (List.mem_cons_of_mem first hmem)

theorem pairwise_distinctCandidates (seen candidates : List Candidate) :
    (distinctCandidates seen candidates).Pairwise fun a b =>
      a.repeats b = false := by
  induction candidates generalizing seen with
  | nil => exact List.Pairwise.nil
  | cons c rest ih =>
    rw [distinctCandidates]
    split
    · exact ih seen
    · refine List.pairwise_cons.2 ⟨?_, ih (c :: seen)⟩
      intro later hlater
      exact not_repeats_of_mem_distinctCandidates hlater c List.mem_cons_self

/-! ## Tiers -/

/-- The tiers of the candidates do not decrease. -/
def Graded (candidates : List Candidate) : Prop :=
  candidates.Pairwise fun a b => a.kind.tier ≤ b.kind.tier

/-- All candidates are of one tier. -/
def AllOfTier (tier : Nat) (candidates : List Candidate) : Prop :=
  ∀ c ∈ candidates, c.kind.tier = tier

namespace AllOfTier

variable {tier : Nat} {candidates more : List Candidate}

theorem graded (h : AllOfTier tier candidates) : Graded candidates := by
  refine List.pairwise_of_forall_mem_list ?_
  intro a ha b hb
  rw [h a ha, h b hb]

theorem append (h : AllOfTier tier candidates) (hmore : AllOfTier tier more) :
    AllOfTier tier (candidates ++ more) := by
  intro c hc
  rcases List.mem_append.1 hc with hc | hc
  · exact h c hc
  · exact hmore c hc

theorem map {α : Type} (f : α → Candidate) (as : List α)
    (hf : ∀ a, (f a).kind.tier = tier) : AllOfTier tier (as.map f) := by
  intro c hc
  obtain ⟨a, -, rfl⟩ := List.mem_map.1 hc
  exact hf a

/-- Candidates of one tier may stand before those of no lower one. -/
theorem graded_append (h : AllOfTier tier candidates) (hmore : Graded more)
    (hle : ∀ c ∈ more, tier ≤ c.kind.tier) : Graded (candidates ++ more) := by
  refine List.pairwise_append.2 ⟨h.graded, hmore, ?_⟩
  intro a ha b hb
  rw [h a ha]
  exact hle b hb

end AllOfTier

theorem allOfTier_bindings (bindings : Bindings) :
    AllOfTier 0 bindings.candidates :=
  .map Candidate.ofSubquery bindings.visible fun _ => rfl

theorem allOfTier_catalog (catalog : Catalog) :
    AllOfTier 0 catalog.candidates := by
  have htables : AllOfTier 0
      (catalog.tables.map fun t =>
        Candidate.ofTable (catalog.displayName t) t) :=
    .map _ _ fun _ => rfl
  exact htables.append
    (.map Candidate.ofSchema catalog.schemaNames fun _ => rfl)

theorem allOfTier_schema (schema : Schema) : AllOfTier 0 schema.candidates :=
  .map (fun t : Table => Candidate.ofTable t.name t) schema.tables.values
    fun _ => rfl

theorem allOfTier_columns (r : Resolver) (source : Source) :
    AllOfTier 0 (r.columnCandidates source) := by
  refine .map Candidate.ofColumn _ ?_
  intro column
  rw [Candidate.ofColumn_kind]
  rfl

/-- The words of a dialect stand before its templates. -/
theorem graded_vocabulary (v : Vocabulary) : Graded v.candidates := by
  have htemplates : AllOfTier 2 (v.snippets.map Candidate.ofSnippet) :=
    .map _ _ fun _ => rfl
  refine AllOfTier.graded_append (show AllOfTier 1 _ from ?_)
    htemplates.graded ?_
  -- Each kind of word has a list of its own.
  · repeat' apply AllOfTier.append
    all_goals
      apply AllOfTier.map
      intro word
      rfl
  · intro c hc
    rw [htemplates c hc]
    exact Nat.le_succ 1

theorem graded_unqualifiedCandidates (r : Resolver) (bindings : Bindings)
    {words : List Candidate} (hwords : Graded words) :
    Graded (unqualifiedCandidates r bindings words) := by
  have hcolumns : ∀ sources : List Source,
      AllOfTier 0 (sources.flatMap r.columnCandidates) := by
    intro sources c hc
    obtain ⟨source, -, hsource⟩ := List.mem_flatMap.1 hc
    exact allOfTier_columns r source c hsource
  rw [unqualifiedCandidates]
  split
  · exact (hcolumns _).graded
  · exact (hcolumns _).graded_append hwords fun _ _ => Nat.zero_le _

theorem graded_qualifiedCandidates (r : Resolver) (bindings : Bindings)
    {words : List Candidate} (hwords : Graded words) (qualifier : String) :
    Graded (qualifiedCandidates r bindings words qualifier) := by
  rw [qualifiedCandidates]
  split
  · exact (allOfTier_columns r _).graded
  · split
    · exact (allOfTier_schema _).graded
    · exact hwords

/-- In every context, candidates are collected tier by tier. -/
theorem graded_candidatesFor (r : Resolver) (bindings : Bindings)
    (dialect : Dialect) (context : CursorContext) :
    Graded (candidatesFor r bindings dialect context) := by
  have hwords := graded_vocabulary dialect.vocabulary
  have hnamed : AllOfTier 0
      (bindings.candidates ++ (r.catalog.map Catalog.candidates).getD []) := by
    refine (allOfTier_bindings bindings).append ?_
    cases r.catalog with
    | none => intro c hc; cases hc
    | some catalog => exact allOfTier_catalog catalog
  rw [candidatesFor]
  cases context.kind with
  | table => exact hnamed.graded
  | schema =>
    show Graded
      (((r.catalog.bind (·.schema? (context.qualifier.getD ""))).map
        Schema.candidates).getD [])
    cases r.catalog.bind (·.schema? (context.qualifier.getD "")) with
    | none => exact List.Pairwise.nil
    | some schema => exact (allOfTier_schema schema).graded
  | column =>
    cases context.qualifier with
    | none => exact graded_unqualifiedCandidates r bindings hwords
    | some qualifier =>
      exact graded_qualifiedCandidates r bindings hwords qualifier
  | general => exact hnamed.graded_append hwords fun _ _ => Nat.zero_le _

/-! ## Numbers as texts -/

/-- Texts of one length decide the order, whatever follows them. -/
theorem append_lt_append {a b : List Char} (h : a < b)
    (hlength : a.length = b.length) (c d : List Char) : a ++ c < b ++ d := by
  induction a generalizing b with
  | nil =>
    cases b with
    | nil => exact absurd h (List.lt_irrefl [])
    | cons y b => cases hlength
  | cons x a ih =>
    cases b with
    | nil => cases hlength
    | cons y b =>
      rw [List.cons_lt_cons_iff] at h
      rw [List.cons_append, List.cons_append, List.cons_lt_cons_iff]
      rcases h with hlt | ⟨heq, hlt⟩
      · exact Or.inl hlt
      · exact Or.inr ⟨heq, ih hlt (Nat.succ.inj hlength)⟩

theorem digitChar_lt {a b : Nat} (h : a < b) (hb : b < 10) :
    Nat.digitChar a < Nat.digitChar b := by
  rw [Char.lt_def, UInt32.lt_iff_toNat_lt]
  show (Nat.digitChar a).toNat < (Nat.digitChar b).toNat
  rw [Nat.toNat_digitChar_of_lt_ten hb,
    Nat.toNat_digitChar_of_lt_ten (Nat.lt_trans h hb)]
  omega

/-- The last digit stands behind the others. -/
theorem padNumber_succ {n : Nat} (hn : 0 < n) (number : Nat) :
    padNumber (n + 1) number
      = padNumber n (number / 10) ++ [Nat.digitChar (number % 10)] := by
  rw [padNumber, padNumber]
  by_cases hsmall : number < 10
  · obtain ⟨m, rfl⟩ := Nat.exists_eq_succ_of_ne_zero (Nat.ne_of_gt hn)
    rw [Nat.div_eq_of_lt hsmall, Nat.mod_eq_of_lt hsmall,
      Nat.toDigits_of_lt_base hsmall, Nat.toDigits_zero]
    show List.replicate (m + 1) '0' ++ _ = (List.replicate m '0' ++ ['0']) ++ _
    rw [List.replicate_succ']
  · have hdigits : Nat.toDigits 10 number
        = Nat.toDigits 10 (number / 10) ++ [Nat.digitChar (number % 10)] :=
      Nat.toDigits_of_base_le (by decide) (Nat.le_of_not_lt hsmall)
    simp only [hdigits, List.length_append, List.length_singleton,
      Nat.add_sub_add_right, List.append_assoc]

theorem length_padNumber {n number : Nat} (hn : 0 < n) (h : number < 10 ^ n) :
    (padNumber n number).length = n := by
  have hle := (Nat.length_toDigits_le_iff (b := 10) (by decide) hn).2 h
  simp only [padNumber, List.length_append, List.length_replicate]
  omega

/-- Numbers in the same number of digits compare as texts. -/
theorem padNumber_lt {n a b : Nat} (hn : 0 < n) (h : a < b) (hb : b < 10 ^ n) :
    padNumber n a < padNumber n b := by
  induction n generalizing a b with
  | zero => exact absurd hn (Nat.lt_irrefl 0)
  | succ n ih =>
    by_cases hzero : n = 0
    · subst hzero
      have hten : b < 10 := hb
      have hdigit : ∀ k, k < 10 → padNumber 1 k = [Nat.digitChar k] := by
        intro k hk
        rw [padNumber, Nat.toDigits_of_lt_base hk]
        rfl
      rw [hdigit a (by omega), hdigit b hten, List.cons_lt_cons_iff]
      exact Or.inl (digitChar_lt h hten)
    · have hpos : 0 < n := Nat.pos_of_ne_zero hzero
      rw [padNumber_succ hpos, padNumber_succ hpos]
      have hquotient : b / 10 < 10 ^ n := by
        rw [Nat.pow_succ] at hb
        omega
      by_cases hlt : a / 10 < b / 10
      · have hlengths : (padNumber n (a / 10)).length
            = (padNumber n (b / 10)).length := by
          rw [length_padNumber hpos hquotient,
            length_padNumber hpos (Nat.lt_trans hlt hquotient)]
        exact append_lt_append (ih hpos hlt hquotient) hlengths _ _
      · have heq : a / 10 = b / 10 := by omega
        rw [heq]
        apply List.append_left_lt
        rw [List.cons_lt_cons_iff]
        exact Or.inl (digitChar_lt (by omega) (by omega))

/-- The texts of two places compare as their tiers and then as the places, as
long as five digits are enough. -/
theorem sortText_lt {a b : Candidate} {i j : Nat}
    (htier : a.kind.tier ≤ b.kind.tier) (h : i < j) (hj : j < 100000) :
    sortText a i < sortText b j := by
  rw [String.lt_iff, sortText, sortText, String.toList_ofList,
    String.toList_ofList]
  have hten : ∀ kind : CandidateKind, kind.tier < 10 ^ 1 := by
    intro kind
    cases kind <;> decide
  have hplaces : padNumber 5 i < padNumber 5 j := padNumber_lt (by decide) h hj
  rcases Nat.lt_or_eq_of_le htier with hlt | heq
  · have hlengths : (padNumber 1 a.kind.tier).length
        = (padNumber 1 b.kind.tier).length := by
      rw [length_padNumber Nat.one_pos (hten _),
        length_padNumber Nat.one_pos (hten _)]
    exact append_lt_append (padNumber_lt Nat.one_pos hlt (hten _)) hlengths _ _
  · rw [heq]
    exact List.append_left_lt hplaces

/-! ## The ranked list -/

namespace CandidateKind

variable {kind : CandidateKind}

theorem named_of_tier (h : kind.tier = 0) :
    kind ∈ [subquery, table, column, schema] := by
  revert h
  cases kind <;> decide

theorem word_of_tier (h : kind.tier = 1) :
    kind ∈ [keyword, reservedWord, systemService, systemCatalog, systemObject,
      function, dataType] := by
  revert h
  cases kind <;> decide

theorem template_of_tier (h : kind.tier = 2) : kind = snippet := by
  revert h
  cases kind <;> decide

end CandidateKind

/-- A list whose tiers do not decrease is its first tier, then its second,
then its third. -/
theorem eq_append_of_tiers {items : List CompletionItem}
    (h :
      items.Pairwise fun a b => a.candidate.kind.tier ≤ b.candidate.kind.tier) :
    items = items.filter (·.candidate.kind.tier == 0)
      ++ items.filter (·.candidate.kind.tier == 1)
      ++ items.filter (·.candidate.kind.tier == 2) := by
  induction items with
  | nil => rfl
  | cons item rest ih =>
    obtain ⟨hfirst, hrest⟩ := List.pairwise_cons.1 h
    -- What follows an item is of no lower tier.
    have hnone : ∀ tier, tier < item.candidate.kind.tier →
        rest.filter (·.candidate.kind.tier == tier) = [] := by
      intro tier hlt
      rw [List.filter_eq_nil_iff]
      intro later hlater
      have hle := hfirst later hlater
      rw [beq_iff_eq]
      omega
    have hle : item.candidate.kind.tier ≤ 2 := by
      cases item.candidate.kind <;> decide
    rcases Nat.lt_or_ge item.candidate.kind.tier 1 with hzero | hge
    · have htier : item.candidate.kind.tier = 0 := by omega
      simpa [htier] using ih hrest
    · rcases Nat.lt_or_ge item.candidate.kind.tier 2 with hone | hge
      · have htier : item.candidate.kind.tier = 1 := by omega
        simpa [htier, hnone 0 (by omega)] using ih hrest
      · have htier : item.candidate.kind.tier = 2 := by omega
        simpa [htier, hnone 0 (by omega), hnone 1 (by omega)] using ih hrest

theorem getElem_rank (candidates : List Candidate) (i : Nat)
    (h : i < (rank candidates).length)
    (h' : i < (distinctCandidates [] candidates).length) :
    (rank candidates)[i]
      = { candidate := (distinctCandidates [] candidates)[i]
          sortText := sortText (distinctCandidates [] candidates)[i] i } := by
  simp [rank]

theorem pairwise_rank {candidates : List Candidate}
    {R : Candidate → Candidate → Prop}
    (h : (distinctCandidates [] candidates).Pairwise R) :
    (rank candidates).Pairwise fun a b => R a.candidate b.candidate := by
  rw [← rank_candidates] at h
  exact List.pairwise_map.1 h

theorem pairwise_sortText_rank {candidates : List Candidate}
    (h : Graded candidates) (hlength : (rank candidates).length ≤ 100000) :
    (rank candidates).Pairwise fun a b => a.sortText < b.sortText := by
  have hgraded : Graded (distinctCandidates [] candidates) :=
    h.sublist (distinctCandidates_sublist [] candidates)
  have hsame : (rank candidates).length
      = (distinctCandidates [] candidates).length := by
    rw [← rank_candidates, List.length_map]
  rw [Graded, List.pairwise_iff_getElem] at hgraded
  rw [List.pairwise_iff_getElem]
  intro i j hi hj hlt
  rw [getElem_rank candidates i hi (hsame ▸ hi),
    getElem_rank candidates j hj (hsame ▸ hj)]
  exact sortText_lt (hgraded i j _ _ hlt) hlt (Nat.lt_of_lt_of_le hj hlength)

/-- Completions in a comment, of which there are none, or of graded
candidates. -/
theorem complete_eq_rank (text : Text) (offset : Nat) (catalog : Option Catalog)
    (dialect : Dialect) :
    ∃ candidates, Graded candidates ∧
      complete text offset catalog dialect = rank candidates := by
  rw [complete]
  split
  · exact ⟨[], List.Pairwise.nil, rfl⟩
  · exact ⟨_, graded_candidatesFor _ _ dialect _, rfl⟩

/-- No two completions of one kind have labels that differ only in the case of
ASCII letters. What the document and the catalog name comes first, then the
words of the dialect, then its templates; and in a list that is not too long for
five digits, the texts by which it is sorted increase. -/
theorem completions_are_ranked (text : Text) (offset : Nat)
    (catalog : Option Catalog) (dialect : Dialect) :
    let items := complete text offset catalog dialect
    (items.Pairwise fun a b =>
      ¬ (a.candidate.kind = b.candidate.kind ∧
          sameAscii a.candidate.label b.candidate.label = true)) ∧
    (∃ named words templates, items = named ++ words ++ templates ∧
        (∀ item ∈ named,
          item.candidate.kind ∈ [.subquery, .table, .column, .schema]) ∧
        (∀ item ∈ words,
          item.candidate.kind
            ∈ [.keyword, .reservedWord, .systemService, .systemCatalog,
              .systemObject, .function, .dataType]) ∧
        ∀ item ∈ templates, item.candidate.kind = .snippet) ∧
    (items.length ≤ 100000 →
      items.Pairwise fun a b => a.sortText < b.sortText) := by
  intro items
  obtain ⟨candidates, hgraded, hitems⟩ :=
    complete_eq_rank text offset catalog dialect
  have hdistinct := pairwise_rank (pairwise_distinctCandidates [] candidates)
  have htiers :=
    pairwise_rank (hgraded.sublist (distinctCandidates_sublist [] candidates))
  have hkind : ∀ (tier : Nat) (item : CompletionItem),
      item ∈ items.filter (·.candidate.kind.tier == tier) →
        item.candidate.kind.tier = tier := by
    intro tier item hmem
    simpa using (List.mem_filter.1 hmem).2
  rw [← hitems] at hdistinct htiers
  refine ⟨?_, ⟨_, _, _, eq_append_of_tiers htiers, ?_, ?_, ?_⟩, ?_⟩
  · refine hdistinct.imp ?_
    rintro a b hrepeats ⟨hsameKind, hlabel⟩
    rw [Candidate.repeats, hsameKind, hlabel] at hrepeats
    simp at hrepeats
  · exact fun item hmem => CandidateKind.named_of_tier (hkind 0 item hmem)
  · exact fun item hmem => CandidateKind.word_of_tier (hkind 1 item hmem)
  · exact fun item hmem => CandidateKind.template_of_tier (hkind 2 item hmem)
  · intro hlength
    show (complete text offset catalog dialect).Pairwise _
    have hrank : (rank candidates).length ≤ 100000 := hitems ▸ hlength
    rw [hitems]
    exact pairwise_sortText_rank hgraded hrank

/-- A subquery and a statement behind it, where anything may be written. -/
def restingQuery : Text := "WITH t AS (SELECT 1 a) SELECT 1; ".toList

/-- A table in two schemas, and one in none. -/
def sharedTables : Catalog :=
  Catalog.ofTables
    [{ name := "T", schema := some "hr" },
      { name := "t", schema := some "crm" }, { name := "U" }]

theorem completions_are_ranked_restingQuery :
    let items := complete restingQuery 33 (some sharedTables) .mysql
    items.length ≤ 100000 ∧
      (items.take 6).map
          (fun item =>
            (item.candidate.label, item.candidate.kind, item.sortText))
        = [("T", .subquery, "000000"), ("T", .table, "000001"),
          ("U", .table, "000002"), ("hr", .schema, "000003"),
          ("crm", .schema, "000004"), ("SELECT", .keyword, "100005")] ∧
      items.Pairwise fun a b => a.sortText < b.sortText := by
  intro items
  have hvalues : items.length ≤ 100000 ∧
      (items.take 6).map
          (fun item =>
            (item.candidate.label, item.candidate.kind, item.sortText))
        = [("T", .subquery, "000000"), ("T", .table, "000001"),
          ("U", .table, "000002"), ("hr", .schema, "000003"),
          ("crm", .schema, "000004"), ("SELECT", .keyword, "100005")] := by
    decide +kernel
  obtain ⟨-, -, hsorted⟩ :=
    completions_are_ranked restingQuery 33 (some sharedTables) .mysql
  exact ⟨hvalues.1, hvalues.2, hsorted hvalues.1⟩

end QueryAssist
