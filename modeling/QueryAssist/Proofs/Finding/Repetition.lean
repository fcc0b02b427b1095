import Mathlib.Data.List.Count
import QueryAssist.Proofs.Finding.BarePair
import QueryAssist.Proofs.Finding.Missed
import QueryAssist.Proofs.Finding.Parens
import QueryAssist.Proofs.Finding.Placement

/-!
# Findings that are reported twice

Of two findings of one kind at one offset both are missing commas, or both are
unknown tables. A missing comma is found again from each `SELECT` whose list
runs into the one it stands in. A list of tables is read anew from every `FROM`,
also from one that is part of a path in another list. All other checks look at
each token once.
-/

namespace QueryAssist

open Text

namespace Finding

/-! ## One look at each token -/

/-- The kind of a finding and where it starts. -/
def key (f : Finding) : String × Nat := (f.code, f.span.offset)

/-- The findings are of one kind and start at different tokens, in order. -/
def StartsAt (code : String) (tokens : List Token)
    (findings : List Finding) : Prop :=
  ∃ starts : List Token, starts.Sublist tokens ∧
    findings.map key = starts.map fun t => (code, t.start)

theorem StartsAt.cons {code : String} {t : Token} {rest : List Token}
    {here later : List Finding} (h : StartsAt code rest later)
    (hhere : here = [] ∨ here.map key = [(code, t.start)]) :
    StartsAt code (t :: rest) (here ++ later) := by
  obtain ⟨starts, hsub, hkeys⟩ := h
  rcases hhere with rfl | hhere
  · exact ⟨starts, hsub.cons t, hkeys⟩
  · exact ⟨t :: starts, hsub.cons_cons t,
      by rw [List.map_append, hhere, hkeys]; rfl⟩

theorem unexpectedCommas_startsAt (text : Text) (tokens : List Token) :
    StartsAt "E1004" tokens (unexpectedCommas text tokens) := by
  induction tokens with
  | nil => exact ⟨[], .refl _, rfl⟩
  | cons t rest ih =>
    rw [unexpectedCommas]
    refine ih.cons ?_
    split
    · cases clauseInFront rest with
      | none => exact .inl rfl
      | some clause => exact .inr rfl
    · exact .inl rfl

theorem incompleteReferences_startsAt (text : Text) (tokens : List Token) :
    StartsAt "E1008" tokens (incompleteReferences text tokens) := by
  induction tokens with
  | nil => exact ⟨[], .refl _, rfl⟩
  | cons t rest ih =>
    unfold incompleteReferences
    refine ih.cons ?_
    cases rest with
    | nil => exact .inl rfl
    | cons dot more =>
      simp only
      split
      · exact .inr rfl
      · exact .inl rfl

theorem neighbours_fst_sublist (tokens : List Token) :
    ((neighbours tokens).map Prod.fst).Sublist tokens := by
  induction tokens with
  | nil => exact .refl _
  | cons t rest ih =>
    cases rest with
    | nil => exact List.nil_sublist _
    | cons next more => exact ih.cons_cons t

theorem neighbours_snd (tokens : List Token) :
    (neighbours tokens).map Prod.snd = tokens.tail :=
  List.map_snd_zip (by simp)

theorem duplicateCommas_startsAt (text : Text) (tokens : List Token) :
    StartsAt "E1005" tokens (duplicateCommas text tokens) := by
  refine ⟨((neighbours tokens).filter fun pair =>
      pair.1.kind == .comma && pair.2.kind == .comma).map Prod.snd, ?_, ?_⟩
  · have hsub :=
      (List.filter_sublist
        (p := fun pair => pair.1.kind == .comma && pair.2.kind == .comma)
        (l := neighbours tokens)).map Prod.snd
    rw [neighbours_snd] at hsub
    exact hsub.trans (List.tail_sublist tokens)
  · rw [duplicateCommas, List.map_map, List.map_map]
    rfl

theorem emptySelects_startsAt (text : Text) (tokens : List Token) :
    StartsAt "E1006" tokens (emptySelects text tokens) := by
  refine ⟨((neighbours tokens).filter fun pair =>
    pair.1.isKeyword "SELECT"
      && pair.2.isOneOf ["FROM", "WHERE"]).map Prod.fst, ?_, ?_⟩
  · exact (List.filter_sublist.map Prod.fst).trans
      (neighbours_fst_sublist tokens)
  · rw [emptySelects, List.map_map, List.map_map]
    rfl

end Finding

/-! ## Columns -/

/-- A path ends with a dot and a name. -/
theorem take_pathTail {tokens : List Token} (h : pathTail tokens ≠ 0) :
    ∃ front dot name, tokens.take (pathTail tokens) = front ++ [dot, name] ∧
      dot.kind = .dot := by
  induction tokens using pathTail.induct with
  | case1 dot name rest hpath ih =>
    rw [pathTail, if_pos hpath, List.take_succ_cons, List.take_succ_cons]
    by_cases hrest : pathTail rest = 0
    · simp only [Bool.and_eq_true, beq_iff_eq] at hpath
      exact ⟨[], dot, name, by rw [hrest]; rfl, hpath.1⟩
    · obtain ⟨front, dot', name', htake, hdot⟩ := ih hrest
      exact ⟨dot :: name :: front, dot', name', by rw [htake]; rfl, hdot⟩
  | case2 dot name rest hpath =>
    rw [pathTail, if_neg hpath] at h
    exact absurd rfl h
  | case3 tokens hshort =>
    refine absurd ?_ h
    unfold pathTail
    split
    · exact absurd rfl (hshort _ _ _)
    · rfl

/-- A run with more than one name ends with a dot and its column. -/
theorem run_ends_with_column {t : Token} {ts : List Token} (h : pathTail ts ≠ 0)
    (following : Option Token) :
    ∃ front dot column,
      t :: ts = (t :: front ++ [dot]) ++ column :: ts.drop (pathTail ts) ∧
        dot.kind = .dot ∧
        ReferenceCheck.QualifiedRun.column?
            { segments := t :: ts.take (pathTail ts), following }
          = some column := by
  obtain ⟨front, dot, column, htake, hdot⟩ := take_pathTail h
  refine ⟨front, dot, column, ?_, hdot, ?_⟩
  · have hsplit := List.take_append_drop (pathTail ts) ts
    rw [htake] at hsplit
    nth_rewrite 1 [← hsplit]
    simp
  · rw [ReferenceCheck.QualifiedRun.column?, htake,
      show t :: (front ++ [dot, column])
          = (t :: front ++ [dot]) ++ [column] by simp, List.getLast?_concat]

namespace ReferenceCheck

/-- The column of a run stands right behind a dot. -/
theorem column_behind_dot {skip : Nat} {previous : Option Token}
    {tokens : List Token} {run : QualifiedRun} {column : Token}
    (h : run ∈ qualifiedRuns skip previous tokens)
    (hcolumn : run.column? = some column) :
    ∃ before dot rest,
      tokens = (before ++ [dot]) ++ column :: rest ∧ dot.kind = .dot := by
  induction tokens generalizing skip previous with
  | nil => cases h
  | cons t ts ih =>
    have hlater : ∀ {skip previous}, run ∈ qualifiedRuns skip previous ts →
        ∃ before dot rest,
          t :: ts = (before ++ [dot]) ++ column :: rest ∧ dot.kind = .dot := by
      intro skip previous hmem
      obtain ⟨before, dot, rest, rfl, hdot⟩ := ih hmem
      exact ⟨t :: before, dot, rest, rfl, hdot⟩
    cases skip with
    | succ n => exact hlater h
    | zero =>
      rw [qualifiedRuns] at h
      split at h
      · rename_i hstarts
        rcases List.mem_cons.1 h with rfl | h
        · simp only [Bool.and_eq_true, bne_iff_ne] at hstarts
          obtain ⟨front, dot, name, hsplit, hdot, hname⟩ :=
            run_ends_with_column hstarts.2 (ts.drop (pathTail ts)).head?
          rw [hname] at hcolumn
          cases hcolumn
          exact ⟨t :: front, dot, ts.drop (pathTail ts), hsplit, hdot⟩
        · exact hlater h
      · exact hlater h

/-- The columns of runs come in order, whichever runs are taken. -/
theorem columns_sublist {pick : QualifiedRun → Option Token}
    (hpick : ∀ run c, pick run = some c → run.column? = some c) (skip : Nat)
    (previous : Option Token) (tokens : List Token) :
    ((qualifiedRuns skip previous tokens).filterMap pick).Sublist
      (tokens.drop skip) := by
  induction tokens generalizing skip previous with
  | nil => simp [qualifiedRuns]
  | cons t ts ih =>
    cases skip with
    | succ n =>
      rw [qualifiedRuns, List.drop_succ_cons]
      exact ih n _
    | zero =>
      rw [qualifiedRuns, List.drop_zero]
      split
      · rename_i hstarts
        simp only [Bool.and_eq_true, bne_iff_ne] at hstarts
        obtain ⟨front, dot, name, hsplit, -, hname⟩ :=
          run_ends_with_column hstarts.2 (ts.drop (pathTail ts)).head?
        have hlater := ih (pathTail ts) (some t)
        have hwhole : (name :: ts.drop (pathTail ts)).Sublist (t :: ts) := by
          rw [hsplit]
          exact List.sublist_append_right _ _
        rw [List.filterMap_cons]
        cases hfound : pick
            { segments := t :: ts.take (pathTail ts),
              following := (ts.drop (pathTail ts)).head? } with
        | none =>
          exact (hlater.trans (List.sublist_cons_self name _)).trans hwhole
        | some c =>
          have hc := hpick _ c hfound
          rw [hname] at hc
          cases hc
          exact (hlater.cons_cons name).trans hwhole
      · have hlater := ih 0 (some t)
        rw [List.drop_zero] at hlater
        exact hlater.cons t

theorem column?_of_referencedColumn? {check : ReferenceCheck}
    {run : QualifiedRun} {column : Token}
    (h : check.referencedColumn? run = some column) :
    run.column? = some column := by
  unfold referencedColumn? at h
  split at h
  · cases h
  · exact h

theorem qualifiedColumns_sublist (check : ReferenceCheck) :
    (check.qualifiedColumns.map Prod.snd).Sublist check.tokens := by
  have hcolumns : check.qualifiedColumns.map Prod.snd
      = (qualifiedRuns 0 none check.tokens).filterMap
        check.referencedColumn? := by
    rw [qualifiedColumns, List.map_filterMap]
    simp [Function.comp_def]
  rw [hcolumns]
  exact columns_sublist (fun _ _ => column?_of_referencedColumn?) 0 none
    check.tokens

theorem bareColumns_sublist (check : ReferenceCheck) (previous : Option Token)
    (tokens : List Token) :
    (check.bareColumns previous tokens).Sublist tokens := by
  induction tokens generalizing previous with
  | nil => exact .refl _
  | cons t ts ih =>
    rw [bareColumns]
    split
    · exact (ih _).cons_cons t
    · exact (ih _).cons t

/-- A column without a qualifier does not stand behind a dot. -/
theorem bareColumn_not_behind_dot {check : ReferenceCheck}
    {previous : Option Token} {tokens : List Token} {column : Token}
    (h : column ∈ check.bareColumns previous tokens) :
    ∃ before rest, tokens = before ++ column :: rest ∧
      ∀ p ∈ before.getLast?.or previous, p.kind ≠ .dot := by
  induction tokens generalizing previous with
  | nil => cases h
  | cons t ts ih =>
    have hlater : column ∈ check.bareColumns (some t) ts →
        ∃ before rest, t :: ts = before ++ column :: rest ∧
          ∀ p ∈ before.getLast?.or previous, p.kind ≠ .dot := by
      intro hmem
      obtain ⟨before, rest, rfl, hbefore⟩ := ih hmem
      refine ⟨t :: before, rest, rfl, ?_⟩
      rw [List.getLast?_cons, Option.some_or]
      cases hlast : before.getLast? with
      | none => simpa [hlast] using hbefore
      | some last => simpa [hlast] using hbefore
    rw [bareColumns] at h
    split at h
    · rename_i hbare
      rcases List.mem_cons.1 h with rfl | h
      · refine ⟨[], ts, rfl, fun p hp hdot => ?_⟩
        simp only [List.getLast?_nil, Option.none_or] at hp
        cases hp
        simp [isBareColumn, hdot] at hbare
      · exact hlater h
    · exact hlater h

theorem missedColumns_nodup {check : ReferenceCheck}
    (hnodup : (check.tokens.map Token.start).Nodup) :
    (check.missedColumns.map Token.start).Nodup := by
  have hqualified : ((check.qualifiedColumns.filter check.missesQualified).map
      Prod.snd).Sublist check.tokens :=
    (List.filter_sublist.map Prod.snd).trans check.qualifiedColumns_sublist
  have hbare : ((check.bareColumns none check.tokens).filter
      check.missesBare).Sublist check.tokens :=
    List.filter_sublist.trans (check.bareColumns_sublist none check.tokens)
  rw [missedColumns, List.map_append, List.nodup_append']
  refine ⟨hnodup.sublist (hqualified.map Token.start),
    hnodup.sublist (hbare.map Token.start), ?_⟩
  intro start hfirst hsecond
  obtain ⟨column, hcolumn, rfl⟩ := List.mem_map.1 hfirst
  obtain ⟨⟨qualifier, column⟩, hmem, rfl⟩ := List.mem_map.1 hcolumn
  obtain ⟨bare, hbare, hsame⟩ := List.mem_map.1 hsecond
  obtain ⟨run, hrun, hreferenced⟩ :=
    List.mem_filterMap.1 (List.mem_filter.1 hmem).1
  obtain ⟨column', hcolumn', hpair⟩ := Option.map_eq_some_iff.1 hreferenced
  cases hpair
  obtain ⟨before, dot, rest, htokens, hdot⟩ :=
    column_behind_dot hrun (column?_of_referencedColumn? hcolumn')
  obtain ⟨before', rest', htokens', hbehind⟩ :=
    bareColumn_not_behind_dot (List.mem_filter.1 hbare).1
  have heq := before_of_start hnodup htokens htokens' hsame.symm
  exact hbehind dot (by simp [← heq]) hdot

theorem key_of_unknownTable? {check : ReferenceCheck} {table : TableRef}
    {f : Finding} (h : check.unknownTable? table = some f) :
    f.key = ("E0001", table.start) := by
  unfold unknownTable? at h
  split at h
  · cases h
  · cases h
    rfl

theorem unknownTables_starts (check : ReferenceCheck) :
    (check.unknownTables.map (·.span.offset)).Sublist
      (check.tables.map TableRef.start) := by
  rw [unknownTables]
  induction check.tables with
  | nil => exact .refl _
  | cons table tables ih =>
    rw [List.filterMap_cons, List.map_cons]
    cases hfound : check.unknownTable? table with
    | none => exact ih.cons table.start
    | some f =>
      have hstart : f.span.offset = table.start :=
        congrArg Prod.snd (key_of_unknownTable? hfound)
      rw [List.map_cons, hstart]
      exact ih.cons_cons table.start

theorem unknownColumns_code {check : ReferenceCheck} {text : Text}
    (htext : check.resolver.document = Document.ofText text) {f : Finding}
    (h : f ∈ check.unknownColumns) : f.code = "E0002" := by
  have hmark : f.mark ∈ check.missedColumns.map (Token.missedMark text) := by
    rw [← unknownColumns_mark htext]
    exact List.mem_map_of_mem h
  obtain ⟨t, -, hmark⟩ := List.mem_map.1 hmark
  exact (congrArg Prod.fst hmark).symm

end ReferenceCheck

/-! ## Check by check -/

namespace Finding

/-- The findings of a text by check, with the code of the check. -/
def byCheck (text : Text) (catalog : Option Catalog) (dialect : Dialect) :
    List (String × List Finding) :=
  let document := Document.ofText text
  [("E1001", unclosedStrings text),
      ("E1003",
        (unopenedParens {} 0 document.clean).map
          (locate text · 1 .unopenedParen)),
      ("E1002",
        (unclosedParens {} 0 [] document.clean).map
          (locate text · 1 .unclosedParen)),
      ("E1004", unexpectedCommas text document.tokens),
      ("E1005", duplicateCommas text document.tokens),
      ("E1006", emptySelects text document.tokens),
      ("E1007", missingCommas text document.tokens),
      ("E1008", incompleteReferences text document.tokens)]
    ++ (catalog.map fun catalog =>
      let check := ReferenceCheck.ofDocument document catalog dialect
      [("E0001", check.unknownTables), ("E0002", check.unknownColumns)]).getD []

theorem analyze_eq_byCheck (text : Text) (catalog : Option Catalog)
    (dialect : Dialect) :
    analyze text catalog dialect
      = (byCheck text catalog dialect).flatMap Prod.snd := by
  cases catalog with
  | none =>
    simp [analyze, byCheck, Document.structureFindings, unbalancedParens,
      Document.ofText]
  | some catalog =>
    simp [analyze, byCheck, Document.structureFindings,
      Document.referenceFindings, unbalancedParens, Document.ofText]

theorem byCheck_codes (text : Text) (catalog : Option Catalog)
    (dialect : Dialect) :
    ((byCheck text catalog dialect).map Prod.fst).Nodup := by
  cases catalog <;> simp [byCheck]

theorem StartsAt.code {code : String} {tokens : List Token}
    {findings : List Finding} (h : StartsAt code tokens findings) {f : Finding}
    (hf : f ∈ findings) : f.code = code := by
  obtain ⟨starts, -, hkeys⟩ := h
  obtain ⟨t, -, hkey⟩ :=
    List.mem_map.1 (hkeys ▸ List.mem_map_of_mem (f := key) hf)
  exact (congrArg Prod.fst hkey).symm

theorem StartsAt.nodup {code : String} {tokens : List Token}
    {findings : List Finding} (h : StartsAt code tokens findings)
    (hnodup : (tokens.map Token.start).Nodup) :
    (findings.map (·.span.offset)).Nodup := by
  obtain ⟨starts, hsub, hkeys⟩ := h
  have hoffsets := congrArg (List.map Prod.snd) hkeys
  rw [List.map_map, List.map_map] at hoffsets
  have hstarts : findings.map (·.span.offset) = starts.map Token.start :=
    hoffsets
  rw [hstarts]
  exact hnodup.sublist (hsub.map Token.start)

theorem missingCommasIn_code {text : Text} {before : Token} {depth : Nat}
    {tokens : List Token} {f : Finding}
    (h : f ∈ missingCommasIn text before depth tokens) : f.code = "E1007" := by
  induction tokens generalizing before depth with
  | nil => cases h
  | cons t rest ih =>
    unfold missingCommasIn at h
    split at h
    · exact ih h
    · split at h
      · cases h
      · exact ih h
    · cases h
    · split at h
      · cases h
      · rcases List.mem_append.1 h with h | h
        · cases rest with
          | nil => cases h
          | cons second more =>
            simp only at h
            split at h
            · rw [List.mem_singleton.1 h]
              rfl
            · cases h
        · exact ih h

theorem missingCommas_code {text : Text} {tokens : List Token} {f : Finding}
    (h : f ∈ missingCommas text tokens) : f.code = "E1007" := by
  induction tokens with
  | nil => cases h
  | cons t rest ih =>
    rw [missingCommas] at h
    rcases List.mem_append.1 h with h | h
    · split at h
      · exact missingCommasIn_code h
      · cases h
    · exact ih h

theorem starts_nodup (text : Text) :
    ((Document.ofText text).tokens.map Token.start).Nodup :=
  List.pairwise_map.2 ((aligned_tokenize text).starts_increase.imp Nat.ne_of_lt)

/-- Each check has its code, and all but two find nothing twice. -/
theorem byCheck_once {text : Text} {catalog : Option Catalog}
    {dialect : Dialect} {code : String} {findings : List Finding}
    (h : (code, findings) ∈ byCheck text catalog dialect) :
    (∀ f ∈ findings, f.code = code) ∧
      (code ≠ "E1007" → code ≠ "E0001" →
        (findings.map (·.span.offset)).Nodup) := by
  have hnodup := starts_nodup text
  have hstarts : ∀ {code findings},
      StartsAt code (Document.ofText text).tokens findings →
        (∀ f ∈ findings, f.code = code) ∧
          (code ≠ "E1007" → code ≠ "E0001" →
            (findings.map (·.span.offset)).Nodup) :=
    fun hat => ⟨fun f hf => hat.code hf, fun _ _ => hat.nodup hnodup⟩
  rcases List.mem_append.1 h with h | h
  · simp only [List.mem_cons, Prod.mk.injEq, List.not_mem_nil, or_false] at h
    rcases h with ⟨rfl, rfl⟩ | ⟨rfl, rfl⟩ | ⟨rfl, rfl⟩ | ⟨rfl, rfl⟩ | ⟨rfl, rfl⟩
      | ⟨rfl, rfl⟩ | ⟨rfl, rfl⟩ | ⟨rfl, rfl⟩
    · unfold unclosedStrings
      cases openQuote none none 0 text.maskComments with
      | none => exact ⟨by simp, fun _ _ => List.nodup_nil⟩
      | some offset =>
        exact ⟨fun f hf => by rw [List.mem_singleton.1 hf]; rfl,
          fun _ _ => List.nodup_singleton _⟩
    · refine ⟨fun f hf => ?_, fun _ _ => ?_⟩
      · obtain ⟨offset, -, rfl⟩ := List.mem_map.1 hf
        rfl
      · rw [List.map_map]
        exact (List.map_id _).symm
          ▸ (unopenedParens_sorted {} 0 _).imp Nat.ne_of_lt
    · refine ⟨fun f hf => ?_, fun _ _ => ?_⟩
      · obtain ⟨offset, -, rfl⟩ := List.mem_map.1 hf
        rfl
      · rw [List.map_map]
        exact (List.map_id _).symm
          ▸ (unclosedParens_sorted List.Pairwise.nil (by simp) {} _).imp
            Nat.ne_of_lt
    · exact hstarts (unexpectedCommas_startsAt text _)
    · exact hstarts (duplicateCommas_startsAt text _)
    · exact hstarts (emptySelects_startsAt text _)
    · exact ⟨fun f hf => missingCommas_code hf, fun hne => absurd rfl hne⟩
    · exact hstarts (incompleteReferences_startsAt text _)
  · cases catalog with
    | none => cases h
    | some catalog =>
      simp only [Option.map_some, Option.getD_some, List.mem_cons,
        Prod.mk.injEq, List.not_mem_nil, or_false] at h
      rcases h with ⟨rfl, rfl⟩ | ⟨rfl, rfl⟩
      · refine ⟨fun f hf => ?_, fun _ hne => absurd rfl hne⟩
        obtain ⟨table, -, hfound⟩ := List.mem_filterMap.1 hf
        exact congrArg Prod.fst (ReferenceCheck.key_of_unknownTable? hfound)
      · refine ⟨fun f hf => ReferenceCheck.unknownColumns_code rfl hf,
          fun _ _ => ?_⟩
        rw [ReferenceCheck.unknownColumns_offset rfl]
        exact ReferenceCheck.missedColumns_nodup hnodup

/-! ## Counting -/

section Count

variable {checks : List (String × List Finding)}
  (hown : ∀ p ∈ checks, ∀ f ∈ p.2, f.code = p.1)

include hown

theorem count_key_of_notMem {code : String} (h : code ∉ checks.map Prod.fst)
    (offset : Nat) :
    ((checks.flatMap Prod.snd).map key).count (code, offset) = 0 := by
  rw [List.count_eq_zero]
  intro hmem
  obtain ⟨f, hf, hkey⟩ := List.mem_map.1 hmem
  obtain ⟨p, hp, hfp⟩ := List.mem_flatMap.1 hf
  have hcode : f.code = code := congrArg Prod.fst hkey
  rw [hown p hp f hfp] at hcode
  exact h (hcode ▸ List.mem_map_of_mem hp)

theorem count_key (hcodes : (checks.map Prod.fst).Nodup) {code : String}
    {findings : List Finding} (h : (code, findings) ∈ checks) (offset : Nat) :
    ((checks.flatMap Prod.snd).map key).count (code, offset)
      = (findings.map (·.span.offset)).count offset := by
  induction checks with
  | nil => cases h
  | cons p rest ih =>
    have hrest : ∀ q ∈ rest, ∀ f ∈ q.2, f.code = q.1 :=
      fun q hq => hown q (List.mem_cons_of_mem p hq)
    obtain ⟨hnew, hcodes'⟩ := List.nodup_cons.1 hcodes
    rw [List.flatMap_cons, List.map_append, List.count_append]
    rcases List.mem_cons.1 h with rfl | h
    · have hkeys : findings.map key
          = (findings.map (·.span.offset)).map (Prod.mk code) := by
        rw [List.map_map]
        exact List.map_congr_left fun f hf =>
          Prod.ext (hown _ List.mem_cons_self f hf) rfl
      rw [count_key_of_notMem hrest hnew, hkeys,
        List.count_map_of_injective _ _ fun _ _ heq => (Prod.mk.inj heq).2,
        Nat.add_zero]
    · have hother : (p.2.map key).count (code, offset) = 0 := by
        rw [List.count_eq_zero]
        intro hmem
        obtain ⟨f, hf, hkey⟩ := List.mem_map.1 hmem
        have hcode : f.code = code := congrArg Prod.fst hkey
        rw [hown p List.mem_cons_self f hf] at hcode
        exact hnew (hcode ▸ List.mem_map_of_mem h)
      rw [hother, Nat.zero_add, ih hrest hcodes' h]

end Count

theorem count_analyze {text : Text} {catalog : Option Catalog}
    {dialect : Dialect} {code : String} {findings : List Finding}
    (h : (code, findings) ∈ byCheck text catalog dialect) (offset : Nat) :
    ((analyze text catalog dialect).map key).count (code, offset)
      = (findings.map (·.span.offset)).count offset := by
  rw [analyze_eq_byCheck]
  exact count_key (fun _ hp => (byCheck_once hp).1)
    (byCheck_codes text catalog dialect) h offset

theorem count_analyze_of_notMem {text : Text} {catalog : Option Catalog}
    {dialect : Dialect} {code : String}
    (h : code ∉ (byCheck text catalog dialect).map Prod.fst) (offset : Nat) :
    ((analyze text catalog dialect).map key).count (code, offset) = 0 := by
  rw [analyze_eq_byCheck]
  exact count_key_of_notMem (fun _ hp => (byCheck_once hp).1) h offset

theorem missingCommas_nodup_iff (text : Text) :
    ((missingCommas text (Document.ofText text).tokens).map
        (·.span.offset)).Nodup ↔
      ListsApart (Document.ofText text).tokens := by
  have hnodup := starts_nodup text
  rw [missingCommas_offset, ← nodup_barePairsOfSelects_iff hnodup.of_map]
  refine ⟨List.Nodup.of_map Token.start, fun hpairs => hpairs.map_on ?_⟩
  intro t ht u hu hstart
  have hsub : barePairsOfSelects (Document.ofText text).tokens
      ⊆ (Document.ofText text).tokens :=
    List.Subset.trans (barePairsOfSelects_subset _) (List.tail_sublist _).subset
  exact List.inj_on_of_nodup_map hnodup (hsub ht) (hsub hu) hstart

end Finding

open Finding

/-- A finding that is reported twice, at one offset with one code, is a missing
comma or an unknown table. Missing commas are reported once each iff no select
list runs into a `SELECT` with missing commas of its own. Unknown tables are
reported once each if no `FROM` stands behind a dot. So with that, or without a
catalog, no finding is reported twice iff the select lists stand apart. -/
theorem findings_are_distinct_iff (text : Text) (catalog : Option Catalog)
    (dialect : Dialect) :
    let tokens := (Document.ofText text).tokens
    let times code offset :=
      ((analyze text catalog dialect).map Finding.key).count (code, offset)
    (∀ code offset, 1 < times code offset → code = "E1007" ∨ code = "E0001") ∧
      ((∀ offset, times "E1007" offset ≤ 1) ↔ ListsApart tokens) ∧
      (NoFromBehindDot tokens → ∀ offset, times "E0001" offset ≤ 1) ∧
      (catalog = none ∨ NoFromBehindDot tokens →
        (((analyze text catalog dialect).map Finding.key).Nodup ↔
          ListsApart tokens)) := by
  intro tokens times
  have hothers : ∀ code offset,
      1 < times code offset → code = "E1007" ∨ code = "E0001" := by
    intro code offset hmore
    by_contra hne
    rw [not_or] at hne
    have hle : times code offset ≤ 1 := by
      by_cases hcode : code ∈ (byCheck text catalog dialect).map Prod.fst
      · obtain ⟨⟨code, findings⟩, hcheck, rfl⟩ := List.mem_map.1 hcode
        have honce := (byCheck_once hcheck).2 hne.1 hne.2
        rw [show times code offset = _ from count_analyze hcheck offset]
        exact List.nodup_iff_count_le_one.1 honce offset
      · rw [show times code offset
          = 0 from count_analyze_of_notMem hcode offset]
        exact Nat.zero_le 1
    omega
  have hcommas : (∀ offset, times "E1007" offset ≤ 1) ↔ ListsApart tokens := by
    have hcheck : ("E1007", missingCommas text tokens)
        ∈ byCheck text catalog dialect :=
      List.mem_append_left _ (by simp [tokens])
    rw [← missingCommas_nodup_iff, List.nodup_iff_count_le_one]
    exact forall_congr' fun offset => by rw [← count_analyze hcheck offset]
  have htables : catalog = none ∨ NoFromBehindDot tokens →
      ∀ offset, times "E0001" offset ≤ 1 := by
    intro hcase offset
    cases catalog with
    | none =>
      rw [show times "E0001" offset
        = 0 from count_analyze_of_notMem (by simp [byCheck]) offset]
      exact Nat.zero_le 1
    | some catalog =>
      let check :=
        ReferenceCheck.ofDocument (Document.ofText text) catalog dialect
      have hcheck : ("E0001", check.unknownTables)
          ∈ byCheck text (some catalog) dialect :=
        List.mem_append_right _ List.mem_cons_self
      have hclear : NoFromBehindDot tokens := hcase.resolve_left (by simp)
      have hstarts :=
        tableRefsFrom_starts_nodup hclear (starts_nodup text) none []
      rw [show times "E0001" offset = _ from count_analyze hcheck offset]
      exact List.nodup_iff_count_le_one.1
        (hstarts.sublist check.unknownTables_starts) offset
  refine ⟨hothers, hcommas, fun hclear => htables (.inr hclear),
    fun hcase => ?_⟩
  rw [← hcommas, List.nodup_iff_count_le_one]
  refine ⟨fun hall offset => hall ("E1007", offset), fun honce => ?_⟩
  rintro ⟨code, offset⟩
  by_contra hmore
  rcases hothers code offset (Nat.lt_of_not_le hmore) with rfl | rfl
  · exact hmore (honce offset)
  · exact hmore (htables hcase offset)

/-- A query whose select list runs into a second one with a missing comma. -/
def minusQuery : Text := "SELECT 1 MINUS SELECT a b FROM t".toList

/-- A query with a path that ends in the word `from`, in a list that goes on. -/
def fromPathQuery : Text := "SELECT 1 FROM a.from b, c".toList

/-- The missing comma between `a` and `b` is reported for both select lists, and
the table `c` for both lists of tables. -/
theorem findings_repeat_minusQuery :
    (analyze minusQuery none .postgresql).map Finding.key
        = [("E1007", 24), ("E1007", 24)] ∧
      ¬ ((analyze minusQuery none .postgresql).map Finding.key).Nodup ∧
      (analyze fromPathQuery (some {}) .postgresql).map Finding.key
        = [("E1008", 14), ("E0001", 14), ("E0001", 24), ("E0001", 21),
          ("E0001", 24)] := by
  decide +kernel

/-- A query with a missing comma in a select list and in one in
parentheses inside it. -/
def nestedQuery : Text := "SELECT a b, (SELECT c d FROM t) FROM t, gone".toList

theorem findings_are_distinct_nestedQuery :
    let findings := analyze nestedQuery (some oneTable) .postgresql
    ListsApart (Document.ofText nestedQuery).tokens ∧
      NoFromBehindDot (Document.ofText nestedQuery).tokens ∧
      (findings.map Finding.key).Nodup ∧
      findings.map Finding.key
        = [("E1007", 9), ("E1007", 22), ("E0001", 40)] := by
  intro findings
  have hapart : ListsApart (Document.ofText nestedQuery).tokens := by
    decide +kernel
  have hclear : NoFromBehindDot (Document.ofText nestedQuery).tokens := by
    decide +kernel
  obtain ⟨-, -, -, hdistinct⟩ :=
    findings_are_distinct_iff nestedQuery (some oneTable) .postgresql
  exact ⟨hapart, hclear, (hdistinct (.inr hclear)).2 hapart, by decide +kernel⟩

end QueryAssist
