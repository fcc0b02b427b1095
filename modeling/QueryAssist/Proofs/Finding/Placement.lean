import QueryAssist.Finding.Analysis
import QueryAssist.Hover
import QueryAssist.Proofs.Query.SelectItem
import QueryAssist.Proofs.Query.TableHeads

/-!
# Where findings and hovers point

Every span that is shown is a range of whole characters of the text. A span
comes about in one of two ways: it runs from the start of a token to the
stop of the same or a later one, or it is one character that a scan of the
masked text met.
-/

namespace QueryAssist

open Text

/-! ## Ranges of tokens -/

/-- The range runs from the start of one of the tokens to the stop of the same
one or a later one. -/
def Covers (tokens : List Token) (start stop : Nat) : Prop :=
  ∃ run, ∃ hne : run ≠ [], run.Sublist tokens ∧ start = (run.head hne).start ∧
    stop = (run.getLast hne).stop

namespace Covers

variable {tokens : List Token} {start stop : Nat}

theorem mono {more : List Token} (h : Covers tokens start stop)
    (hsub : tokens.Sublist more) : Covers more start stop := by
  obtain ⟨run, hne, hrun, hstart, hstop⟩ := h
  exact ⟨run, hne, hrun.trans hsub, hstart, hstop⟩

theorem of_mem {t : Token} (h : t ∈ tokens) : Covers tokens t.start t.stop :=
  ⟨[t], by simp, List.singleton_sublist.2 h, rfl, rfl⟩

theorem of_run {run : List Token} (hne : run ≠ []) (hsub : run.Sublist tokens) :
    Covers tokens (run.head hne).start (run.getLast hne).stop :=
  ⟨run, hne, hsub, rfl, rfl⟩

end Covers

theorem Aligned.isRange_of_covers {text : Text} {tokens : List Token}
    {start stop : Nat} (h : Aligned text tokens)
    (hcovers : Covers tokens start stop) : text.IsRange start stop := by
  obtain ⟨run, hne, hsub, rfl, rfl⟩ := hcovers
  exact (h.sublist hsub).range_all hne

/-- What a finding tells, and the bytes it covers in a text that starts
`base` bytes on. Its kind, severity and wording follow from the problem and
the remedy. -/
def Finding.notice (base : Nat) (f : Finding) :
    Problem × Option Remedy × Nat × Nat :=
  (f.problem, f.remedy, f.span.offset + base, f.span.length)

/-! ## Single characters of the masked text -/

namespace Finding

theorem openQuote_hasAt {opened : Option Nat} {before : Option Char}
    {front rest : Text} {offset : Nat}
    (hopened : ∀ o, opened = some o → HasAt (front ++ rest) o '\'')
    (h : openQuote opened before (width front) rest = some offset) :
    HasAt (front ++ rest) offset '\'' := by
  induction rest generalizing opened before front with
  | nil => exact hopened offset h
  | cons c cs ih =>
    have hassoc : front ++ c :: cs = (front ++ [c]) ++ cs := by simp
    rw [openQuote] at h
    rw [hassoc] at hopened ⊢
    refine ih ?_ (by rwa [width_append, width_cons, width_nil, Nat.add_zero])
    intro o ho
    split at ho
    · rename_i hquote
      simp only [Bool.and_eq_true, beq_iff_eq] at hquote
      split at ho
      · cases ho
      · cases ho
        exact ⟨front, cs, by rw [hquote.1, List.append_assoc]; rfl, rfl⟩
    · exact hopened o ho

theorem unopenedParens_hasAt {state : Nesting} {front rest : Text}
    {offset : Nat} (h : offset ∈ unopenedParens state (width front) rest) :
    HasAt (front ++ rest) offset ')' := by
  induction rest generalizing state front with
  | nil => simp [unopenedParens] at h
  | cons c cs ih =>
    have hassoc : front ++ c :: cs = (front ++ [c]) ++ cs := by simp
    have hwidth : width front + c.utf8Size = width (front ++ [c]) := by simp
    rw [unopenedParens, hwidth] at h
    split at h
    · rename_i hevent
      rcases List.mem_cons.1 h with rfl | h
      · have hc : c = ')' := Nesting.event_mark (by rw [hevent]; rfl)
        exact ⟨front, cs, by rw [hc], rfl⟩
      · rw [hassoc]
        exact ih h
    · rw [hassoc]
      exact ih h

theorem unclosedParens_hasAt {state : Nesting} {opened : List Nat}
    {front rest : Text} {offset : Nat}
    (hopened : ∀ o ∈ opened, HasAt (front ++ rest) o '(')
    (h : offset ∈ unclosedParens state (width front) opened rest) :
    HasAt (front ++ rest) offset '(' := by
  induction rest generalizing state opened front with
  | nil => exact hopened offset (List.mem_reverse.1 h)
  | cons c cs ih =>
    have hassoc : front ++ c :: cs = (front ++ [c]) ++ cs := by simp
    have hwidth : width front + c.utf8Size = width (front ++ [c]) := by simp
    rw [unclosedParens, hwidth] at h
    rw [hassoc]
    refine ih ?_ h
    intro o ho
    rw [← hassoc]
    cases hevent : state.event c with
    | opened =>
      rw [hevent] at ho
      rcases List.mem_cons.1 ho with rfl | ho
      · have hc : c = '(' := Nesting.event_mark (by rw [hevent]; rfl)
        exact ⟨front, cs, by rw [hc], rfl⟩
      · exact hopened o ho
    | closed =>
      rw [hevent] at ho
      exact hopened o (List.mem_of_mem_tail ho)
    | underflow =>
      rw [hevent] at ho
      exact hopened o ho
    | other =>
      rw [hevent] at ho
      exact hopened o ho

/-- A single character of one byte is a range. -/
theorem locate_fits_of_hasAt {text : Text} {offset : Nat} {c : Char}
    (h : HasAt text offset c) (hsize : c.utf8Size = 1) :
    (Span.locate text offset 1).Fits text := by
  have := Span.locate_fits h.isRange
  rwa [hsize, Nat.add_sub_cancel_left] at this

theorem unclosedStrings_fit {text : Text} {f : Finding}
    (h : f ∈ unclosedStrings text) : f.span.Fits text := by
  unfold unclosedStrings at h
  split at h
  · rename_i offset hopen
    rw [List.mem_singleton.1 h]
    have hat : HasAt text.maskComments offset '\'' := by
      have :=
        openQuote_hasAt (show ∀ o,
          none = some o → HasAt ([] ++ text.maskComments) o '\'' by simp) hopen
      simpa using this
    exact locate_fits_of_hasAt (hasAt_of_maskFrom hat (by decide)) rfl
  · simp at h

theorem unbalancedParens_fit {text : Text} {f : Finding}
    (h : f ∈ unbalancedParens text text.sanitize) : f.span.Fits text := by
  rcases List.mem_append.1 h with h | h
  · obtain ⟨offset, hoffset, rfl⟩ := List.mem_map.1 h
    have hat : HasAt ([] ++ text.sanitize) offset ')' :=
      unopenedParens_hasAt hoffset
    exact locate_fits_of_hasAt (hasAt_of_maskFrom hat (by decide)) rfl
  · obtain ⟨offset, hoffset, rfl⟩ := List.mem_map.1 h
    have hat : HasAt ([] ++ text.sanitize) offset '(' :=
      unclosedParens_hasAt (by simp) hoffset
    exact locate_fits_of_hasAt (hasAt_of_maskFrom hat (by decide)) rfl

/-! ## Tokens -/

/-- The finding covers tokens of the list. -/
def OnTokens (text : Text) (tokens : List Token) (f : Finding) : Prop :=
  ∃ start stop,
    Covers tokens start stop ∧ f.span = Span.locate text start (stop - start)

namespace OnTokens

variable {text : Text} {tokens : List Token} {f : Finding}

theorem mono {more : List Token} (h : OnTokens text tokens f)
    (hsub : tokens.Sublist more) : OnTokens text more f := by
  obtain ⟨start, stop, hcovers, hspan⟩ := h
  exact ⟨start, stop, hcovers.mono hsub, hspan⟩

theorem cons {t : Token} (h : OnTokens text tokens f) :
    OnTokens text (t :: tokens) f :=
  h.mono (List.sublist_cons_self t tokens)

theorem of_mem {t : Token} (h : t ∈ tokens)
    (hspan : f.span = Span.locate text t.start (t.stop - t.start)) :
    OnTokens text tokens f :=
  ⟨t.start, t.stop, .of_mem h, hspan⟩

theorem fits (h : OnTokens text tokens f)
    (haligned : Aligned text tokens) : f.span.Fits text := by
  obtain ⟨start, stop, hcovers, hspan⟩ := h
  rw [hspan]
  exact Span.locate_fits (haligned.isRange_of_covers hcovers)

end OnTokens

theorem locate_fits_of_comma {text : Text} {t : Token}
    (h : t ∈ tokenize text.sanitize) (hkind : t.kind = .comma) :
    (Span.locate text t.start 1).Fits text := by
  have hstop : t.stop = t.start + 1 :=
    stop_of_mark h (show t.kind.mark? = some ',' by rw [hkind]; rfl)
  have := Span.locate_fits ((aligned_tokenize text).range t h)
  rwa [hstop, Nat.add_sub_cancel_left] at this

theorem mem_unexpectedCommas {text : Text} {tokens : List Token} {f : Finding}
    (h : f ∈ unexpectedCommas text tokens) :
    ∃ t ∈ tokens, t.kind = .comma ∧ f.span = Span.locate text t.start 1 := by
  induction tokens with
  | nil => simp [unexpectedCommas] at h
  | cons t rest ih =>
    rw [unexpectedCommas] at h
    rcases List.mem_append.1 h with h | h
    · split at h
      · rename_i hkind
        split at h
        · rw [List.mem_singleton.1 h]
          exact ⟨t, by simp, by simpa using hkind, rfl⟩
        · simp at h
      · simp at h
    · obtain ⟨u, hu, hkind, hspan⟩ := ih h
      exact ⟨u, by simp [hu], hkind, hspan⟩

theorem mem_duplicateCommas {text : Text} {tokens : List Token} {f : Finding}
    (h : f ∈ duplicateCommas text tokens) :
    ∃ t ∈ tokens, t.kind = .comma ∧ f.span = Span.locate text t.start 1 := by
  obtain ⟨⟨a, b⟩, hpair, rfl⟩ := List.mem_map.1 h
  obtain ⟨hzip, hkinds⟩ := List.mem_filter.1 hpair
  simp only [Bool.and_eq_true, beq_iff_eq] at hkinds
  exact ⟨b, List.mem_of_mem_tail (List.of_mem_zip hzip).2, hkinds.2, rfl⟩

theorem emptySelects_onTokens {text : Text} {tokens : List Token} {f : Finding}
    (h : f ∈ emptySelects text tokens) : OnTokens text tokens f := by
  obtain ⟨⟨a, b⟩, hpair, rfl⟩ := List.mem_map.1 h
  exact .of_mem (List.of_mem_zip (List.mem_filter.1 hpair).1).1 rfl

theorem missingCommasIn_onTokens {text : Text} {before : Token} {depth : Nat}
    {tokens : List Token} {f : Finding}
    (h : f ∈ missingCommasIn text before depth tokens) :
    OnTokens text tokens f := by
  induction tokens generalizing before depth with
  | nil => simp [missingCommasIn] at h
  | cons t rest ih =>
    unfold missingCommasIn at h
    split at h
    · exact (ih h).cons
    · split at h
      · simp at h
      · exact (ih h).cons
    · simp at h
    · split at h
      · simp at h
      · rcases List.mem_append.1 h with h | h
        · cases rest with
          | nil => simp at h
          | cons second more =>
            simp only at h
            split at h
            · rw [List.mem_singleton.1 h]
              exact .of_mem (show second ∈ t :: second :: more by simp) rfl
            · simp at h
        · exact (ih h).cons

theorem missingCommas_onTokens {text : Text} {tokens : List Token} {f : Finding}
    (h : f ∈ missingCommas text tokens) : OnTokens text tokens f := by
  induction tokens with
  | nil => simp [missingCommas] at h
  | cons t rest ih =>
    rw [missingCommas] at h
    rcases List.mem_append.1 h with h | h
    · split at h
      · exact (missingCommasIn_onTokens h).cons
      · simp at h
    · exact (ih h).cons

theorem incompleteReferences_onTokens {text : Text} {tokens : List Token}
    {f : Finding}
    (h : f ∈ incompleteReferences text tokens) : OnTokens text tokens f := by
  induction tokens with
  | nil => simp [incompleteReferences] at h
  | cons t rest ih =>
    unfold incompleteReferences at h
    rcases List.mem_append.1 h with h | h
    · cases rest with
      | nil => simp at h
      | cons dot more =>
        simp only at h
        split at h
        · rw [List.mem_singleton.1 h]
          have hsub : [t, dot].Sublist (t :: dot :: more) := by simp
          exact ⟨t.start, dot.stop, .of_run (by simp) hsub, rfl⟩
        · simp at h
    · exact (ih h).cons

/-- Findings that need no catalog fit their text. -/
theorem structureFindings_fit {text : Text} {f : Finding}
    (h : f ∈ (Document.ofText text).structureFindings) : f.span.Fits text := by
  have haligned := aligned_tokenize text
  simp only [Document.structureFindings, List.mem_append] at h
  rcases h with (((((h | h) | h) | h) | h) | h) | h
  · exact unclosedStrings_fit h
  · exact unbalancedParens_fit h
  · obtain ⟨t, ht, hkind, hspan⟩ := mem_unexpectedCommas h
    rw [hspan]
    exact locate_fits_of_comma ht hkind
  · obtain ⟨t, ht, hkind, hspan⟩ := mem_duplicateCommas h
    rw [hspan]
    exact locate_fits_of_comma ht hkind
  · exact (emptySelects_onTokens h).fits haligned
  · exact (missingCommas_onTokens h).fits haligned
  · exact (incompleteReferences_onTokens h).fits haligned

end Finding

/-! ## Table references -/

theorem readTableRef_covers {tokens : List Token} {table : TableRef}
    {used : Nat} (h : readTableRef tokens = some (table, used)) :
    Covers tokens table.start table.stop := by
  obtain ⟨path, following, rfl, -, hreads⟩ := readTableRef_parts h
  have hstart := hreads.start
  have hstop := hreads.stop
  have hne : path ≠ [] := by
    rintro rfl
    cases hstart
  rw [List.head?_eq_some_head hne, Option.map_some, Option.some.injEq] at hstart
  rw [List.getLast?_eq_some_getLast hne, Option.map_some,
    Option.some.injEq] at hstop
  exact ⟨path, hne, List.sublist_append_left path following, hstart.symm,
    hstop.symm⟩

theorem readTableList_covers {commas : Bool} {tokens : List Token}
    {table : TableRef} (h : table ∈ readTableList commas 0 tokens) :
    Covers tokens table.start table.stop := by
  induction tokens using readTableList_induction commas with
  | empty tokens hempty =>
    rw [hempty] at h
    cases h
  | last only list front used honly hread hlist =>
    rw [hlist, List.mem_singleton] at h
    rw [h]
    exact (readTableRef_covers hread).mono (List.sublist_append_right only list)
  | next only taken comma more front honly hcommas hread hcomma hlist ih =>
    have hlater : (taken ++ comma :: more).Sublist
        (only ++ (taken ++ comma :: more)) := List.sublist_append_right only _
    rw [hlist, List.mem_cons] at h
    rcases h with rfl | h
    · exact (readTableRef_covers hread).mono hlater
    · exact (ih h).mono
        (((List.sublist_cons_self comma more).trans
          (List.sublist_append_right taken _)).trans hlater)

theorem tableRefsFrom_covers {previous : Option Token} {calls : List Bool}
    {tokens : List Token} {table : TableRef}
    (h : table ∈ tableRefsFrom previous calls tokens) :
    Covers tokens table.start table.stop := by
  obtain ⟨before, head, after, rfl, -, hmem⟩ := head_of_mem_tableRefsFrom h
  exact (readTableList_covers hmem).mono
    ((List.sublist_cons_self head after).trans
      (List.sublist_append_right before _))

/-! ## Findings against a catalog -/

namespace ReferenceCheck

theorem unknownTables_onTokens {check : ReferenceCheck}
    (htables : check.tables = tableRefs check.tokens) {f : Finding}
    (h : f ∈ check.unknownTables) : f.OnTokens check.text check.tokens := by
  obtain ⟨table, htable, hfound⟩ := List.mem_filterMap.1 h
  rw [htables] at htable
  unfold unknownTable? at hfound
  split at hfound
  · cases hfound
  · cases hfound
    exact ⟨table.start, table.stop, tableRefsFrom_covers htable, rfl⟩

theorem unknownColumn?_onTokens {check : ReferenceCheck} {column : Token}
    (hcolumn : column ∈ check.tokens) {lookup : Lookup} {f : Finding}
    (h : check.unknownColumn? column lookup = some f) :
    f.OnTokens check.text check.tokens := by
  cases lookup with
  | found => cases h
  | indeterminate => cases h
  | missing sources available =>
    cases h
    exact .of_mem hcolumn rfl

theorem qualifiedRuns_sublist {skip : Nat} {previous : Option Token}
    {tokens : List Token} {run : QualifiedRun}
    (h : run ∈ qualifiedRuns skip previous tokens) :
    run.segments.Sublist tokens := by
  induction tokens generalizing skip previous with
  | nil => simp [qualifiedRuns] at h
  | cons t ts ih =>
    have htail : ts.Sublist (t :: ts) := List.sublist_cons_self t ts
    cases skip with
    | succ n => exact (ih h).trans htail
    | zero =>
      rw [qualifiedRuns] at h
      split at h
      · rcases List.mem_cons.1 h with rfl | h
        · exact (List.take_sublist _ _).cons_cons t
        · exact (ih h).trans htail
      · exact (ih h).trans htail

theorem referencedColumn?_mem {check : ReferenceCheck} {run : QualifiedRun}
    {column : Token} (h : check.referencedColumn? run = some column) :
    column ∈ run.segments := by
  unfold referencedColumn? at h
  split at h
  · cases h
  · exact List.mem_of_getLast? h

theorem unknownQualified_onTokens {check : ReferenceCheck} {met : List Bindings}
    {runs : List QualifiedRun}
    (hruns : ∀ run ∈ runs, run.segments.Sublist check.tokens) {f : Finding}
    (h : f ∈ (check.unknownQualified met runs).1) :
    f.OnTokens check.text check.tokens := by
  induction runs generalizing met with
  | nil => simp [unknownQualified] at h
  | cons run runs ih =>
    have hrest : ∀ run ∈ runs, run.segments.Sublist check.tokens :=
      fun r hr => hruns r (by simp [hr])
    rw [unknownQualified] at h
    split at h
    · exact ih hrest h
    · rename_i column hcolumn
      have hmem : column ∈ check.tokens :=
        (hruns run (by simp)).subset (referencedColumn?_mem hcolumn)
      rcases List.mem_append.1 h with h | h
      · exact unknownColumn?_onTokens hmem (Option.mem_toList.1 h)
      · exact ih hrest h

theorem unknownBare_onTokens {check : ReferenceCheck} {defined : List String}
    {met : List Bindings} {previous : Option Token} {tokens : List Token}
    (htokens : tokens.Sublist check.tokens) {f : Finding}
    (h : f ∈ check.unknownBare defined met previous tokens) :
    f.OnTokens check.text check.tokens := by
  induction tokens generalizing met previous with
  | nil => simp [unknownBare] at h
  | cons t ts ih =>
    have hrest : ts.Sublist check.tokens :=
      (List.sublist_cons_self t ts).trans htokens
    rw [unknownBare] at h
    split at h
    · rcases List.mem_append.1 h with h | h
      · exact unknownColumn?_onTokens (htokens.subset (by simp))
          (Option.mem_toList.1 h)
      · exact ih hrest h
    · exact ih hrest h

theorem unknownColumns_onTokens {check : ReferenceCheck} {f : Finding}
    (h : f ∈ check.unknownColumns) : f.OnTokens check.text check.tokens := by
  rcases List.mem_append.1 h with h | h
  · exact unknownQualified_onTokens (fun _ => qualifiedRuns_sublist) h
  · exact unknownBare_onTokens (List.Sublist.refl _) h

end ReferenceCheck

/-- Findings against a catalog fit their text. -/
theorem referenceFindings_fit {text : Text} {catalog : Catalog}
    {dialect : Dialect} {f : Finding}
    (h : f ∈ (Document.ofText text).referenceFindings catalog dialect) :
    f.span.Fits text := by
  have haligned := aligned_tokenize text
  rcases List.mem_append.1 h with h | h
  · exact (ReferenceCheck.unknownTables_onTokens rfl h).fits haligned
  · exact (ReferenceCheck.unknownColumns_onTokens h).fits haligned

/-- The findings of a text fit it. -/
theorem analyze_fit {text : Text} {catalog : Option Catalog} {dialect : Dialect}
    {f : Finding}
    (h : f ∈ analyze text catalog dialect) : f.span.Fits text := by
  rcases List.mem_append.1 h with h | h
  · exact Finding.structureFindings_fit h
  · cases catalog with
    | none => simp at h
    | some catalog => exact referenceFindings_fit h

/-! ## Hovers -/

theorem Focus.find?_mem {p : Token → Bool} {before tokens : List Token}
    {focus : Focus}
    (h : Focus.find? p before tokens = some focus) : focus.token ∈ tokens := by
  induction tokens generalizing before with
  | nil => cases h
  | cons t ts ih =>
    rw [Focus.find?] at h
    split at h
    · cases h
      simp
    · exact List.mem_cons_of_mem t (ih h)

theorem Focus.atOffset?_mem {tokens : List Token} {offset : Nat} {focus : Focus}
    (h : Focus.atOffset? tokens offset = some focus) :
    focus.token ∈ tokens := by
  unfold Focus.atOffset? at h
  rcases Option.or_eq_some_iff.1 (by simpa using h) with h | ⟨-, h⟩
  · exact Focus.find?_mem h
  · exact Focus.find?_mem h

/-- The span of a hover fits its text. -/
theorem hover_fit {text : Text} {offset : Nat} {catalog : Option Catalog}
    {dialect : Dialect} {shown : Hover}
    (h : hover text offset catalog dialect = some shown) :
    shown.span.Fits text := by
  simp only [hover, Option.bind_eq_bind, Option.bind_eq_some_iff] at h
  obtain ⟨focus, hfocus, hcontent⟩ := h
  have hfits :=
    Span.locate_fits
      ((aligned_tokenize text).range _ (Focus.atOffset?_mem hfocus))
  -- the three ways to find the content all show the same span
  split at hcontent
  · obtain ⟨content, -, hshown⟩ := Option.bind_eq_some_iff.1 hcontent
    cases hshown
    exact hfits
  · split at hcontent
    · obtain ⟨content, -, hshown⟩ := Option.bind_eq_some_iff.1 hcontent
      cases hshown
      exact hfits
    · obtain ⟨content, -, hshown⟩ := Option.bind_eq_some_iff.1 hcontent
      cases hshown
      exact hfits

/-! ## The text and its masked copy -/

/-- Offsets that are worked out on the masked copy hold for the text. Every
token covers whole characters and, unless it is a string literal, has them as
its text. Cutting a renamed expression out of the text never fails and gives the
expression of its column, and nothing else is cut out of the text. Every
finding, and every hover, points at whole characters. -/
theorem masked_offsets_fit_text (text : Text) :
    (∀ t ∈ tokenize text.sanitize, t.start < t.stop ∧
        text.isBoundary t.start = true ∧ text.isBoundary t.stop = true ∧
        (t.kind ≠ .string → text.slice t.start t.stop = t.text.toList)) ∧
      (∀ expr ∈ renamedExpressions text, ∃ cut,
        text.slice? (exprRange expr).1 (exprRange expr).2 = some cut ∧
          ∀ name,
            (aliased text name expr).expression
              = some (String.ofList (trim cut))) ∧
      (∀ other : Text,
        (∀ expr ∈ renamedExpressions text,
            other.slice (exprRange expr).1 (exprRange expr).2
              = text.slice (exprRange expr).1 (exprRange expr).2) →
          subqueriesOf other text.sanitize (tokenize text.sanitize)
              = parseSubqueries text ∧
            selectAliases other (tokenize text.sanitize)
              = selectAliases text (tokenize text.sanitize)) ∧
      (∀ catalog dialect,
        ∀ f ∈ analyze text catalog dialect, f.span.Fits text) ∧
      ∀ catalog dialect offset shown,
        hover text offset catalog dialect = some shown →
          shown.span.Fits text := by
  have haligned := aligned_tokenize text
  refine ⟨?_, ?_, fun other => subqueries_of_agree, fun _ _ _ => analyze_fit,
    fun _ _ _ _ => hover_fit⟩
  · intro t ht
    have hrange := haligned.range t ht
    exact ⟨hrange.lt, hrange.start_boundary, hrange.stop_boundary,
      haligned.spelled t ht⟩
  · intro expr hexpr
    obtain ⟨hne, hin⟩ := renamedExpressions_isInfix hexpr
    have hrange := (haligned.sublist hin.sublist).range_all hne
    refine ⟨text.slice (exprRange expr).1 (exprRange expr).2, ?_,
      fun name => aliased_expression text name expr⟩
    rw [exprRange_of_ne_nil hne]
    exact slice?_of_isRange hrange

/-- A text with wide characters in a name, a literal and a comment. -/
def accentedQuery : Text :=
  "WITH q AS (SELECT é.ñ AS b /* ü */ FROM t) SELECT 'ß', q.b FROM q (".toList

theorem masked_offsets_fit_accentedQuery :
    (⟨.word, "ñ", 21, 23⟩ : Token) ∈ tokenize accentedQuery.sanitize ∧
      accentedQuery.slice 21 23 = ['ñ'] ∧
      [⟨.word, "é", 18, 20⟩, ⟨.dot, ".", 20, 21⟩, ⟨.word, "ñ", 21, 23⟩]
        ∈ renamedExpressions accentedQuery ∧
      (∃ cut, accentedQuery.slice? 18 23 = some cut) ∧
      (∃ f ∈ analyze accentedQuery,
        f.problem = .unclosedParen ∧ f.span.Fits accentedQuery) ∧
      ∃ shown, hover accentedQuery 59 = some shown ∧
        shown.span.Fits accentedQuery := by
  obtain ⟨htokens, hexprs, -, hfindings, hhovers⟩ :=
    masked_offsets_fit_text accentedQuery
  have htoken : (⟨.word, "ñ", 21, 23⟩ : Token)
      ∈ tokenize accentedQuery.sanitize := by decide +kernel
  have hexpr : [⟨.word, "é", 18, 20⟩, ⟨.dot, ".", 20, 21⟩, ⟨.word, "ñ", 21, 23⟩]
      ∈ renamedExpressions accentedQuery := by decide +kernel
  refine ⟨htoken, (htokens _ htoken).2.2.2 (by decide), hexpr, ?_, ?_, ?_⟩
  · obtain ⟨cut, hcut, -⟩ := hexprs _ hexpr
    exact ⟨cut, hcut⟩
  · have hfound : ∃ f ∈ analyze accentedQuery, f.problem = .unclosedParen := by
      decide +kernel
    obtain ⟨f, hf, hproblem⟩ := hfound
    exact ⟨f, hf, hproblem, hfindings none .postgresql f hf⟩
  · have hsome : (hover accentedQuery 59).isSome = true := by decide +kernel
    obtain ⟨shown, hshown⟩ := Option.isSome_iff_exists.1 hsome
    exact ⟨shown, hshown, hhovers none .postgresql 59 shown hshown⟩

end QueryAssist
