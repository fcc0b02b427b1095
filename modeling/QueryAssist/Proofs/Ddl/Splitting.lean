import QueryAssist.Ddl.Script
import QueryAssist.Proofs.Text.Range

/-!
# Where scripts are cut

A script is a sequence of segments: single characters of code, semicolons,
literals, dollar-quoted texts and comments. A semicolon of code is a segment of
its own, any other belongs to a longer segment. The statements of a script are
the texts between its semicolon segments that are not blank. The scanner finds
these, with one exception: the last character of a block comment that is never
closed counts as code, so if it is a semicolon it is cut off.
-/

namespace QueryAssist.Ddl

open Text

/-! ## Segments -/

inductive SegmentKind where
  | code
  | semicolon
  | string
  | dollarQuoted
  | lineComment
  | blockComment
  deriving DecidableEq, Repr

/-- A part of a script. -/
structure Segment where
  kind : SegmentKind
  text : Text
  deriving DecidableEq, Repr

/-- What may stand between the quotes of a literal: a quote in it is
written twice. -/
inductive QuotedBody : Text → Prop
  | nil : QuotedBody []
  | char {c : Char} {cs : Text} (hc : c ≠ '\'') (tail : QuotedBody cs) :
      QuotedBody (c :: cs)
  | escaped {cs : Text} (tail : QuotedBody cs) : QuotedBody ('\'' :: '\'' :: cs)

/-- A tag of a dollar quote: letters, digits and underscores between two
dollar signs. -/
def IsTag (tag : Text) : Prop :=
  ∃ name : Text, tag = '$' :: (name ++ ['$']) ∧ ∀ c ∈ name, isTagChar c = true

/-- In the body with the mark behind it, the mark occurs at the end and
nowhere else. -/
def EndsAt (mark body : Text) : Prop := ¬ mark <:+: body ++ mark.dropLast

/-- What closes a block comment. -/
def commentEnd : Text := ['*', '/']

/-- Nothing is opened by `c` in front of `rest`. -/
structure OpensNothing (c : Char) (rest : Text) : Prop where
  semicolon : c ≠ ';'
  quote : c ≠ '\''
  tag : ¬ ∃ tag, IsTag tag ∧ tag <+: c :: rest
  dashes : ¬ ['-', '-'] <+: c :: rest
  slash : ¬ ['/', '*'] <+: c :: rest

/-- The segment that stands in code in front of `rest`. A literal, a dollar
quote or a comment that is not closed goes on to the end of the script. -/
inductive IsSegment : Segment → Text → Prop
  | semicolon (rest : Text) : IsSegment ⟨.semicolon, [';']⟩ rest
  | string {body rest : Text} (hbody : QuotedBody body)
      (hrest : ¬ ['\''] <+: rest) :
      IsSegment ⟨.string, '\'' :: (body ++ ['\''])⟩ rest
  | openString {body : Text} (hbody : QuotedBody body) :
      IsSegment ⟨.string, '\'' :: body⟩ []
  | dollarQuoted {tag body : Text} (htag : IsTag tag) (hbody : EndsAt tag body)
      (rest : Text) : IsSegment ⟨.dollarQuoted, tag ++ (body ++ tag)⟩ rest
  | openDollarQuoted {tag body : Text} (htag : IsTag tag)
      (hbody : ¬ tag <:+: body) : IsSegment ⟨.dollarQuoted, tag ++ body⟩ []
  | lineComment {body rest : Text} (hbody : '\n' ∉ body)
      (hrest : rest = [] ∨ ['\n'] <+: rest) :
      IsSegment ⟨.lineComment, '-' :: '-' :: body⟩ rest
  | blockComment {body : Text} (hbody : EndsAt commentEnd body) (rest : Text) :
      IsSegment ⟨.blockComment, '/' :: '*' :: (body ++ commentEnd)⟩ rest
  | openBlockComment {body : Text} (hbody : ¬ commentEnd <:+: body) :
      IsSegment ⟨.blockComment, '/' :: '*' :: body⟩ []
  | code {c : Char} {rest : Text} (hplain : OpensNothing c rest) :
      IsSegment ⟨.code, [c]⟩ rest

/-- The script is the sequence of the segments. -/
inductive Reads : Text → List Segment → Prop
  | done : Reads [] []
  | segment {s : Segment} {rest : Text} {segments : List Segment}
      (head : IsSegment s rest) (tail : Reads rest segments) :
      Reads (s.text ++ rest) (s :: segments)

/-- The texts between the semicolon segments. -/
def between (segments : List Segment) : List Text :=
  (segments.splitOnP (·.kind == .semicolon)).map fun run =>
    run.flatMap Segment.text

/-- The texts between the semicolon segments that are not blank. -/
def statementTexts (segments : List Segment) : List Text :=
  (between segments).filter (!allBlank ·)

/-- The last segment is a block comment that ends with a semicolon, hence is
not closed. -/
def EndsInOpenComment (segments : List Segment) : Prop :=
  ∃ s, segments.getLast? = some s ∧ s.kind = .blockComment ∧
    s.text.getLast? = some ';'

/-! ## Pieces -/

/-- A text put in front of the first piece. -/
def prependText (front : Text) : List Text → List Text
  | [] => [front]
  | piece :: pieces => (front ++ piece) :: pieces

theorem consPiece_eq (c : Char) (pieces : List Text) :
    consPiece c pieces = prependText [c] pieces := by
  cases pieces <;> rfl

theorem prependText_append (a b : Text) (pieces : List Text) :
    prependText a (prependText b pieces) = prependText (a ++ b) pieces := by
  cases pieces <;> simp [prependText]

theorem prependText_nil {pieces : List Text} (h : pieces ≠ []) :
    prependText [] pieces = pieces := by
  cases pieces with
  | nil => exact absurd rfl h
  | cons piece pieces => rfl

theorem between_semicolon {s : Segment} (h : s.kind = .semicolon)
    (segments : List Segment) :
    between (s :: segments) = [] :: between segments := by
  rw [between, List.splitOnP_cons_eq_if_modifyHead, if_pos (by simp [h])]
  rfl

theorem between_cons {s : Segment} (h : s.kind ≠ .semicolon)
    (segments : List Segment) :
    between (s :: segments) = prependText s.text (between segments) := by
  rw [between, List.splitOnP_cons_eq_if_modifyHead, if_neg (by simpa using h),
    between]
  obtain ⟨run, runs, hruns⟩ :=
    List.exists_cons_of_ne_nil
      (List.splitOnP_ne_nil (·.kind == .semicolon) segments)
  rw [hruns]
  rfl

/-! ## The scanner, step by step -/

theorem piecesFrom_ne_nil (mode : ScriptMode) (taken : Nat) (text : Text) :
    piecesFrom mode taken text ≠ [] := by
  have hcons : ∀ c pieces, consPiece c pieces ≠ [] := by
    intro c pieces
    cases pieces <;> simp [consPiece]
  cases text with
  | nil => simp [piecesFrom]
  | cons c cs =>
    cases taken with
    | succ n => exact hcons c _
    | zero =>
      rw [piecesFrom]
      split
      · simp
      · exact hcons c _

theorem piecesFrom_taken (mode : ScriptMode) (taken rest : Text) :
    piecesFrom mode taken.length (taken ++ rest)
      = prependText taken (piecesFrom mode 0 rest) := by
  induction taken with
  | nil => exact (prependText_nil (piecesFrom_ne_nil mode 0 rest)).symm
  | cons c cs ih =>
    rw [List.cons_append, List.length_cons, piecesFrom, ih, consPiece_eq,
      prependText_append]
    rfl

/-- One step: a character that ends no statement, and what it takes with it. -/
theorem piecesFrom_step {mode mode' : ScriptMode} {c : Char} {taken rest : Text}
    (hends : c = ';' → mode.endsStatement (taken ++ rest) = false)
    (hnext : mode.next c (taken ++ rest) = (mode', taken.length)) :
    piecesFrom mode 0 (c :: (taken ++ rest))
      = prependText (c :: taken) (piecesFrom mode' 0 rest) := by
  have hcond : ¬ (c == ';' && mode.endsStatement (taken ++ rest)) = true := by
    intro h
    rw [Bool.and_eq_true, beq_iff_eq] at h
    rw [hends h.1] at h
    exact absurd h.2 (by decide)
  rw [piecesFrom, if_neg hcond]
  simp only [hnext]
  rw [piecesFrom_taken, consPiece_eq, prependText_append]
  rfl

theorem piecesFrom_char {mode mode' : ScriptMode} {c : Char} {rest : Text}
    (hends : c = ';' → mode.endsStatement rest = false)
    (hnext : mode.next c rest = (mode', 0)) :
    piecesFrom mode 0 (c :: rest) = prependText [c] (piecesFrom mode' 0 rest) :=
  @piecesFrom_step mode mode' c [] rest hends hnext

theorem piecesFrom_string {body : Text} (h : QuotedBody body) (rest : Text) :
    piecesFrom .string 0 (body ++ rest)
      = prependText body (piecesFrom .string 0 rest) := by
  induction h with
  | nil => exact (prependText_nil (piecesFrom_ne_nil _ 0 rest)).symm
  | @char c cs hc tail ih =>
    have hnext : ScriptMode.string.next c (cs ++ rest) = (.string, 0) := by
      simp [ScriptMode.next, hc]
    rw [List.cons_append, piecesFrom_char (fun _ => rfl) hnext, ih,
      prependText_append]
    rfl
  | @escaped cs tail ih =>
    have hnext : ScriptMode.string.next '\'' (['\''] ++ (cs ++ rest))
        = (.string, ['\''].length) := by simp [ScriptMode.next]
    have hstep := piecesFrom_step (fun _ => rfl) hnext
    rw [ih, prependText_append] at hstep
    exact hstep

theorem piecesFrom_lineComment {body : Text} (h : '\n' ∉ body) (rest : Text) :
    piecesFrom .lineComment 0 (body ++ rest)
      = prependText body (piecesFrom .lineComment 0 rest) := by
  induction body with
  | nil => exact (prependText_nil (piecesFrom_ne_nil _ 0 rest)).symm
  | cons c cs ih =>
    simp only [List.mem_cons, not_or] at h
    have hnext : ScriptMode.lineComment.next c (cs ++ rest)
        = (.lineComment, 0) := by simp [ScriptMode.next, Ne.symm h.1]
    rw [List.cons_append, piecesFrom_char (fun _ => rfl) hnext, ih h.2,
      prependText_append]
    rfl

/-! ## Modes that look for a mark -/

section Search

variable {mode : ScriptMode} {mark : Text}

/-- The mode goes on until the mark is found. -/
structure Seeks (mode : ScriptMode) (mark : Text) : Prop where
  long : 2 ≤ mark.length
  head : mark.head? ≠ some ';'
  next : ∀ c cs,
    mode.next c cs
      = if mark.isPrefixOf (c :: cs) then (.code, mark.length - 1)
        else (mode, 0)
  ends : ∀ c cs, mode.endsStatement (c :: cs) = false

/-- Where the mark does not start, the mode goes on. -/
theorem Seeks.piecesFrom_append (h : Seeks mode mark) {body rest : Text}
    (hrest : rest ≠ [])
    (hnone : ∀ front back,
      body = front ++ back → back ≠ [] → ¬ mark <+: back ++ rest) :
    piecesFrom mode 0 (body ++ rest)
      = prependText body (piecesFrom mode 0 rest) := by
  induction body with
  | nil => exact (prependText_nil (piecesFrom_ne_nil mode 0 rest)).symm
  | cons c cs ih =>
    have hends : mode.endsStatement (cs ++ rest) = false := by
      obtain ⟨d, ds, hmore⟩ :=
        List.exists_cons_of_ne_nil (show cs ++ rest ≠ [] by simp [hrest])
      rw [hmore]
      exact h.ends d ds
    have hnext : mode.next c (cs ++ rest) = (mode, 0) := by
      rw [h.next, if_neg]
      rw [List.isPrefixOf_iff_prefix]
      exact hnone [] (c :: cs) rfl (by simp)
    rw [List.cons_append, piecesFrom_char (fun _ => hends) hnext,
      ih fun front back heq => hnone (c :: front) back (by rw [heq]; rfl),
      prependText_append]
    rfl

/-- The mark ends what the mode is in. -/
theorem Seeks.piecesFrom_closed (h : Seeks mode mark) {body : Text}
    (hbody : EndsAt mark body) (rest : Text) :
    piecesFrom mode 0 (body ++ (mark ++ rest))
      = prependText (body ++ mark) (piecesFrom .code 0 rest) := by
  have hlong := h.long
  have hne : mark ≠ [] := by
    rintro rfl
    simp at hlong
  rw [h.piecesFrom_append]
  -- the mark itself
  · obtain ⟨c, taken, hmark⟩ := List.exists_cons_of_ne_nil hne
    have hnext : mode.next c (taken ++ rest) = (.code, taken.length) := by
      rw [h.next, if_pos]
      · rw [hmark, List.length_cons, Nat.add_sub_cancel]
      · rw [List.isPrefixOf_iff_prefix, hmark, ← List.cons_append]
        exact List.prefix_append _ _
    have hc : c ≠ ';' := by
      rintro rfl
      exact h.head (by rw [hmark]; rfl)
    rw [hmark, List.cons_append,
      piecesFrom_step (fun heq => absurd heq hc) hnext, prependText_append]
  · intro hnil
    exact hne (List.append_eq_nil_iff.1 hnil).1
  -- an earlier mark would lie in the body and all but the last character of the
  -- mark behind it
  · intro front back heq hback hstart
    apply hbody
    have hsplit : back ++ (mark ++ rest)
        = (back ++ mark.dropLast) ++ ([mark.getLast hne] ++ rest) := by
      rw [List.append_assoc, ← List.append_assoc mark.dropLast,
        List.dropLast_concat_getLast hne]
    rw [hsplit] at hstart
    have hlength : mark.length ≤ (back ++ mark.dropLast).length := by
      have : 0 < back.length := List.length_pos_iff.2 hback
      rw [List.length_append, List.length_dropLast]
      omega
    have hpre :=
      List.prefix_of_prefix_length_le hstart (List.prefix_append _ _) hlength
    rw [heq, List.append_assoc]
    exact hpre.isInfix.trans (List.suffix_append front _).isInfix

/-- Without the mark the mode goes on to the last character. -/
theorem Seeks.piecesFrom_toLast (h : Seeks mode mark) {front : Text}
    {last : Char} (hbody : ¬ mark <:+: front ++ [last]) :
    piecesFrom mode 0 (front ++ [last])
      = prependText front (piecesFrom mode 0 [last]) := by
  refine h.piecesFrom_append (by simp) ?_
  intro before back heq hback hstart
  apply hbody
  rw [heq, List.append_assoc]
  exact hstart.isInfix.trans (List.suffix_append before _).isInfix

/-- Without the mark the mode goes on to the end, if it does not cut the last
character off. -/
theorem Seeks.piecesFrom_open (h : Seeks mode mark) {body : Text}
    (hbody : ¬ mark <:+: body)
    (hends : body.getLast? = some ';' → mode.endsStatement [] = false) :
    piecesFrom mode 0 body = [body] := by
  cases hlast : body.getLast? with
  | none =>
    rw [List.getLast?_eq_none_iff.1 hlast]
    rfl
  | some last =>
    obtain ⟨front, rfl⟩ := List.getLast?_eq_some_iff.1 hlast
    have hnext : mode.next last [] = (mode, 0) := by
      rw [h.next, if_neg]
      intro hstart
      have hle := (List.isPrefixOf_iff_prefix.1 hstart).length_le
      have hlong := h.long
      rw [List.length_singleton] at hle
      omega
    have hone := piecesFrom_char (fun heq => hends (by rw [hlast, heq])) hnext
    rw [h.piecesFrom_toLast hbody, hone, prependText_append]
    simp [piecesFrom, prependText]

end Search

theorem isTagChar_dollar : isTagChar '$' = false := by decide

/-- A tag in front of a text is found, and nothing else is taken for one. -/
theorem dollarTag?_eq_some_iff {text tag : Text} :
    dollarTag? text = some tag ↔ IsTag tag ∧ tag <+: text := by
  constructor
  · intro h
    unfold dollarTag? at h
    split at h
    · rename_i rest
      simp only [Option.ite_none_right_eq_some, Option.some.injEq] at h
      obtain ⟨hdollar, rfl⟩ := h
      refine ⟨⟨rest.takeWhile isTagChar, rfl,
          fun c hc => List.all_eq_true.1 List.all_takeWhile c hc⟩, ?_⟩
      obtain ⟨later, hlater⟩ := List.head?_eq_some_iff.1 hdollar
      have hrest :=
        List.prefix_iff_eq_append.1
          (List.takeWhile_prefix isTagChar (l := rest))
      rw [hlater] at hrest
      exact ⟨later, by simpa using hrest⟩
    · cases h
  · rintro ⟨⟨name, rfl, hname⟩, later, rfl⟩
    have hrun : (name ++ '$' :: later).takeWhile isTagChar = name := by
      rw [List.takeWhile_append_of_pos hname,
        List.takeWhile_cons_of_neg (by simp [isTagChar_dollar]),
        List.append_nil]
    have htext : '$' :: (name ++ ['$']) ++ later
        = '$' :: (name ++ '$' :: later) := by simp
    simp [htext, dollarTag?, hrun]

theorem seeks_dollarQuoted {tag : Text} (h : IsTag tag) :
    Seeks (.dollarQuoted tag) tag := by
  obtain ⟨name, rfl, -⟩ := h
  exact ⟨by simp, by simp, fun c cs => rfl,
    fun c cs => by simp [ScriptMode.endsStatement]⟩

/-- Two characters in front of a text, as the scanner looks for them. -/
theorem pair_prefix_iff {a b c : Char} {rest : Text} :
    [a, b] <+: c :: rest ↔ (c == a && rest.head? == some b) = true := by
  rw [List.cons_prefix_cons, Bool.and_eq_true, beq_iff_eq, beq_iff_eq,
    List.head?_eq_some_iff, eq_comm]
  constructor
  · rintro ⟨hc, later, rfl⟩
    exact ⟨hc, later, rfl⟩
  · rintro ⟨hc, later, rfl⟩
    exact ⟨hc, later, rfl⟩

theorem seeks_blockComment : Seeks .blockComment commentEnd where
  long := by decide
  head := by decide
  next c cs := by
    have hmark : (commentEnd.isPrefixOf (c :: cs) = true)
        = ((c == '*' && cs.head? == some '/') = true) :=
      propext (List.isPrefixOf_iff_prefix.trans pair_prefix_iff)
    rw [ScriptMode.next]
    simp only [hmark]
    rfl
  ends c cs := rfl

/-! ## One segment -/

theorem next_of_opensNothing {c : Char} {rest : Text}
    (h : OpensNothing c rest) : ScriptMode.code.next c rest = (.code, 0) := by
  have htag : dollarTag? (c :: rest) = none := by
    rw [Option.eq_none_iff_forall_ne_some]
    intro tag htag
    exact h.tag ⟨tag, dollarTag?_eq_some_iff.1 htag⟩
  have hdashes := mt pair_prefix_iff.2 h.dashes
  have hslash := mt pair_prefix_iff.2 h.slash
  have hquote : ¬ (c == '\'') = true := by simpa using h.quote
  rw [ScriptMode.next, if_neg hquote, htag]
  simp only [if_neg hdashes, if_neg hslash, ite_self]

theorem piecesFrom_of_quote (rest : Text) :
    piecesFrom .code 0 ('\'' :: rest)
      = prependText ['\''] (piecesFrom .string 0 rest) :=
  piecesFrom_char (fun heq => absurd heq (by decide)) rfl

theorem piecesFrom_of_tag {tag : Text} (h : IsTag tag) (rest : Text) :
    piecesFrom .code 0 (tag ++ rest)
      = prependText tag (piecesFrom (.dollarQuoted tag) 0 rest) := by
  obtain ⟨name, htag, -⟩ := id h
  have hfound : dollarTag? ('$' :: ((name ++ ['$']) ++ rest)) = some tag := by
    rw [← List.cons_append, ← htag]
    exact dollarTag?_eq_some_iff.2 ⟨h, List.prefix_append _ _⟩
  have hnext : ScriptMode.code.next '$' ((name ++ ['$']) ++ rest)
      = (.dollarQuoted tag, (name ++ ['$']).length) := by
    rw [ScriptMode.next, if_neg (by decide), if_pos (by decide), hfound]
    simp only [htag, List.length_cons, Nat.add_sub_cancel]
  have hstep := piecesFrom_step (fun heq => absurd heq (by decide)) hnext
  rw [← List.cons_append, ← htag] at hstep
  exact hstep

theorem piecesFrom_of_dashes (rest : Text) :
    piecesFrom .code 0 ('-' :: '-' :: rest)
      = prependText ['-', '-'] (piecesFrom .lineComment 0 rest) :=
  @piecesFrom_step .code .lineComment '-' ['-'] rest
    (fun heq => absurd heq (by decide)) rfl

theorem piecesFrom_of_slash (rest : Text) :
    piecesFrom .code 0 ('/' :: '*' :: rest)
      = prependText ['/', '*'] (piecesFrom .blockComment 0 rest) :=
  @piecesFrom_step .code .blockComment '/' ['*'] rest
    (fun heq => absurd heq (by decide)) rfl

/-- What follows a line comment ends it. -/
theorem piecesFrom_behind_lineComment {rest : Text}
    (h : rest = [] ∨ ['\n'] <+: rest) :
    piecesFrom .lineComment 0 rest = piecesFrom .code 0 rest := by
  rcases h with rfl | ⟨later, rfl⟩
  · rfl
  · have hline : ScriptMode.lineComment.next '\n' later = (.code, 0) := rfl
    have hcode : ScriptMode.code.next '\n' later = (.code, 0) := rfl
    rw [List.singleton_append,
      piecesFrom_char (fun heq => absurd heq (by decide)) hline,
      piecesFrom_char (fun heq => absurd heq (by decide)) hcode]

theorem IsSegment.text_ne_nil {s : Segment} {rest : Text}
    (h : IsSegment s rest) : s.text ≠ [] := by
  cases h with
  | dollarQuoted htag | openDollarQuoted htag =>
    obtain ⟨name, rfl, -⟩ := htag
    simp
  | _ => simp

/-- Only a block comment that is not closed ends with a semicolon. -/
theorem IsSegment.eq_openBlockComment {s : Segment} {rest : Text}
    (h : IsSegment s rest) (hkind : s.kind = .blockComment)
    (hlast : s.text.getLast? = some ';') :
    rest = [] ∧
      ∃ front, s.text = '/' :: '*' :: (front ++ [';']) ∧
        ¬ commentEnd <:+: front ++ [';'] := by
  cases h with
  | @blockComment body hbody rest =>
    have htext : '/' :: '*' :: (body ++ commentEnd)
        = ('/' :: '*' :: (body ++ ['*'])) ++ ['/'] := by simp [commentEnd]
    rw [htext, List.getLast?_concat] at hlast
    exact absurd hlast (by decide)
  | @openBlockComment body hbody =>
    cases hback : body.getLast? with
    | none =>
      rw [List.getLast?_eq_none_iff.1 hback] at hlast
      exact absurd hlast (by decide)
    | some last =>
      obtain ⟨front, rfl⟩ := List.getLast?_eq_some_iff.1 hback
      rw [← List.cons_append, ← List.cons_append, List.getLast?_concat,
        Option.some.injEq] at hlast
      subst hlast
      exact ⟨rfl, front, rfl, hbody⟩
  | _ => cases hkind

/-- The scanner takes a segment as a whole, unless it is a semicolon or a
comment that ends with one. -/
theorem IsSegment.piecesFrom_append {s : Segment} {rest : Text}
    (h : IsSegment s rest) (hkind : s.kind ≠ .semicolon)
    (hend : s.kind = .blockComment → s.text.getLast? ≠ some ';') :
    piecesFrom .code 0 (s.text ++ rest)
      = prependText s.text (piecesFrom .code 0 rest) := by
  cases h with
  | semicolon => exact absurd rfl hkind
  | @string body _ hbody hrest =>
    have hnext : ScriptMode.string.next '\'' rest = (.code, 0) := by
      have hhead : ¬ (rest.head? == some '\'') = true := by
        rw [beq_iff_eq, List.head?_eq_some_iff]
        rintro ⟨later, rfl⟩
        exact hrest ⟨later, rfl⟩
      simp only [ScriptMode.next, beq_self_eq_true, if_true, if_neg hhead]
    have hclose := piecesFrom_char (fun heq => absurd heq (by decide)) hnext
    simp only [List.cons_append, List.append_assoc, List.nil_append]
    rw [piecesFrom_of_quote, piecesFrom_string hbody, hclose,
      prependText_append, prependText_append]
    simp
  | openString hbody =>
    simp only [List.cons_append]
    rw [piecesFrom_of_quote, piecesFrom_string hbody, prependText_append]
    rfl
  | @dollarQuoted tag body htag hbody _ =>
    rw [List.append_assoc, List.append_assoc, piecesFrom_of_tag htag,
      (seeks_dollarQuoted htag).piecesFrom_closed hbody, prependText_append]
  | openDollarQuoted htag hbody =>
    rw [List.append_nil, piecesFrom_of_tag htag,
      (seeks_dollarQuoted htag).piecesFrom_open hbody fun _ => by
      simp [ScriptMode.endsStatement]]
    simp [prependText, piecesFrom]
  | lineComment hbody hrest =>
    simp only [List.cons_append]
    rw [piecesFrom_of_dashes, piecesFrom_lineComment hbody,
      piecesFrom_behind_lineComment hrest, prependText_append]
    rfl
  | @blockComment body hbody _ =>
    simp only [List.cons_append, List.append_assoc]
    rw [piecesFrom_of_slash, seeks_blockComment.piecesFrom_closed hbody,
      prependText_append]
    rfl
  | @openBlockComment body hbody =>
    have hlast : body.getLast? ≠ some ';' := by
      intro hlast
      refine hend rfl ?_
      obtain ⟨front, rfl⟩ := List.getLast?_eq_some_iff.1 hlast
      rw [← List.cons_append, ← List.cons_append, List.getLast?_concat]
    rw [List.append_nil, piecesFrom_of_slash,
      seeks_blockComment.piecesFrom_open hbody fun heq => absurd heq hlast]
    simp [prependText, piecesFrom]
  | @code c _ hplain =>
    rw [List.singleton_append,
      piecesFrom_char (fun heq => absurd heq hplain.semicolon)
        (next_of_opensNothing hplain)]

/-! ## Every script has segments -/

theorem exists_quotedBody :
    ∀ text : Text, ∃ body, QuotedBody body ∧
      (text = body ∨ ∃ rest, text = body ++ '\'' :: rest ∧ ¬ ['\''] <+: rest)
  | [] => ⟨[], .nil, .inl rfl⟩
  | c :: cs => by
    by_cases hc : c = '\''
    · subst hc
      cases cs with
      | nil => exact ⟨[], .nil, .inr ⟨[], rfl, by simp⟩⟩
      | cons d ds =>
        by_cases hd : d = '\''
        · subst hd
          obtain ⟨body, hbody, hend⟩ := exists_quotedBody ds
          refine ⟨'\'' :: '\'' :: body, .escaped hbody, ?_⟩
          rcases hend with rfl | ⟨rest, rfl, hrest⟩
          · exact .inl rfl
          · exact .inr ⟨rest, rfl, hrest⟩
        · refine ⟨[], .nil, .inr ⟨d :: ds, rfl, ?_⟩⟩
          rintro ⟨later, hlater⟩
          exact hd (List.cons.inj hlater).1.symm
    · obtain ⟨body, hbody, hend⟩ := exists_quotedBody cs
      refine ⟨c :: body, .char hc hbody, ?_⟩
      rcases hend with rfl | ⟨rest, rfl, hrest⟩
      · exact .inl rfl
      · exact .inr ⟨rest, rfl, hrest⟩

/-- A text with a mark in it ends at the first one. -/
theorem exists_endsAt {mark text : Text} (hmark : mark ≠ [])
    (h : mark <:+: text) :
    ∃ body rest, text = body ++ (mark ++ rest) ∧ EndsAt mark body := by
  induction text with
  | nil => exact absurd (List.infix_nil.1 h) hmark
  | cons c cs ih =>
    by_cases hhere : mark <+: c :: cs
    · obtain ⟨rest, hrest⟩ := hhere
      refine ⟨[], rest, hrest.symm, ?_⟩
      intro hinfix
      have hle := hinfix.length_le
      have hpos := List.length_pos_iff.2 hmark
      rw [List.nil_append, List.length_dropLast] at hle
      omega
    · obtain ⟨body, rest, hcs, hbody⟩ :=
        ih ((List.infix_cons_iff.1 h).resolve_left hhere)
      refine ⟨c :: body, rest, by rw [hcs]; rfl, ?_⟩
      intro hinfix
      rw [List.cons_append] at hinfix
      rcases List.infix_cons_iff.1 hinfix with hstart | hlater
      · apply hhere
        rw [hcs, ← List.dropLast_concat_getLast hmark, List.append_assoc,
          ← List.append_assoc body, ← List.cons_append,
          List.dropLast_concat_getLast hmark]
        exact hstart.trans (List.prefix_append _ _)
      · exact hbody hlater

theorem exists_segment (c : Char) (cs : Text) :
    ∃ s rest, IsSegment s rest ∧ c :: cs = s.text ++ rest := by
  by_cases hsemicolon : c = ';'
  · subst hsemicolon
    exact ⟨_, cs, .semicolon cs, rfl⟩
  by_cases hquote : c = '\''
  · subst hquote
    obtain ⟨body, hbody, rfl | ⟨rest, rfl, hrest⟩⟩ := exists_quotedBody cs
    · exact ⟨_, [], .openString hbody, by simp⟩
    · exact ⟨_, rest, .string hbody hrest, by simp⟩
  by_cases htag : ∃ tag, IsTag tag ∧ tag <+: c :: cs
  · obtain ⟨tag, htag, text, htext⟩ := htag
    by_cases hclosed : tag <:+: text
    · have hne : tag ≠ [] := by
        obtain ⟨name, rfl, -⟩ := htag
        simp
      obtain ⟨body, rest, rfl, hbody⟩ := exists_endsAt hne hclosed
      exact ⟨_, rest, .dollarQuoted htag hbody rest, by simp [← htext]⟩
    · exact ⟨_, [], .openDollarQuoted htag hclosed, by simp [← htext]⟩
  by_cases hdashes : ['-', '-'] <+: c :: cs
  · obtain ⟨text, htext⟩ := hdashes
    have hbody : '\n' ∉ text.takeWhile (· != '\n') := by
      intro hmem
      exact absurd (List.all_eq_true.1 List.all_takeWhile _ hmem) (by decide)
    have hrest : text.dropWhile (· != '\n') = [] ∨
        ['\n'] <+: text.dropWhile (· != '\n') := by
      have hhead := List.head?_dropWhile_not (· != '\n') text
      cases hrest : text.dropWhile (· != '\n') with
      | nil => exact .inl rfl
      | cons d ds =>
        rw [hrest] at hhead
        have hnewline : d = '\n' := by simpa using hhead
        exact .inr ⟨ds, by rw [hnewline]; rfl⟩
    exact ⟨_, _, .lineComment hbody hrest, by simp [← htext]⟩
  by_cases hslash : ['/', '*'] <+: c :: cs
  · obtain ⟨text, htext⟩ := hslash
    by_cases hclosed : commentEnd <:+: text
    · obtain ⟨body, rest, rfl, hbody⟩ := exists_endsAt (by decide) hclosed
      exact ⟨_, rest, .blockComment hbody rest, by simp [← htext]⟩
    · exact ⟨_, [], .openBlockComment hclosed, by simp [← htext]⟩
  exact ⟨_, cs, .code ⟨hsemicolon, hquote, htag, hdashes, hslash⟩, rfl⟩

theorem exists_reads : ∀ script : Text, ∃ segments, Reads script segments
  | [] => ⟨[], .done⟩
  | c :: cs => by
    obtain ⟨s, rest, hs, htext⟩ := exists_segment c cs
    have hlt : rest.length < (c :: cs).length := by
      rw [htext, List.length_append]
      have := List.length_pos_iff.2 hs.text_ne_nil
      omega
    obtain ⟨segments, hsegments⟩ := exists_reads rest
    exact ⟨s :: segments, htext ▸ .segment hs hsegments⟩
termination_by script => script.length
decreasing_by exact hlt

/-! ## The whole script -/

section Reading

variable {script : Text} {segments : List Segment}

theorem EndsInOpenComment.of_cons {s t : Segment}
    (h : EndsInOpenComment (s :: t :: segments)) :
    EndsInOpenComment (t :: segments) := by
  obtain ⟨last, hlast, hcomment⟩ := h
  exact ⟨last, by rw [← hlast, List.getLast?_cons_cons], hcomment⟩

theorem EndsInOpenComment.cons {s : Segment} (h : EndsInOpenComment segments) :
    EndsInOpenComment (s :: segments) := by
  obtain ⟨last, hlast, hcomment⟩ := h
  cases segments with
  | nil => cases hlast
  | cons t segments =>
    exact ⟨last, by rw [← hlast, List.getLast?_cons_cons], hcomment⟩

theorem Reads.eq_nil (h : Reads [] segments) : segments = [] := by
  generalize hscript : ([] : Text) = text at h
  cases h with
  | done => rfl
  | segment head tail =>
    exact absurd (List.append_eq_nil_iff.1 hscript.symm).1 head.text_ne_nil

/-- Unless the last segment is a comment that is cut, the scanner's pieces are
the texts between the semicolons. -/
theorem Reads.piecesFrom_eq (h : Reads script segments)
    (hend : ¬ EndsInOpenComment segments) :
    piecesFrom .code 0 script = between segments := by
  induction h with
  | done => rfl
  | @segment s rest segments head tail ih =>
    have htail := ih fun hlater => hend hlater.cons
    by_cases hkind : s.kind = .semicolon
    · rw [between_semicolon hkind, ← htail]
      cases head with
      | semicolon => rfl
      | _ => cases hkind
    · have hcut : s.kind = .blockComment → s.text.getLast? ≠ some ';' := by
        intro hcomment hlast
        obtain ⟨rfl, -⟩ := head.eq_openBlockComment hcomment hlast
        rw [tail.eq_nil] at hend
        exact hend ⟨s, rfl, hcomment, hlast⟩
      rw [head.piecesFrom_append hkind hcut, between_cons hkind, htail]

/-- A comment that is not closed loses the semicolon at its end, and an empty
piece follows. -/
theorem Reads.piecesFrom_cut (h : Reads script segments)
    (hend : EndsInOpenComment segments) :
    ∃ front last, '/' ∈ last ∧ between segments = front ++ [last ++ [';']] ∧
      piecesFrom .code 0 script = front ++ [last, []] := by
  induction h with
  | done =>
    obtain ⟨s, hlast, -⟩ := hend
    cases hlast
  | @segment s rest segments head tail ih =>
    cases segments with
    | nil =>
      obtain ⟨s', hlast, hcomment, hsemicolon⟩ := hend
      obtain rfl : s = s' := by simpa using hlast
      obtain ⟨rfl, front, htext, hbody⟩ :=
        head.eq_openBlockComment hcomment hsemicolon
      refine ⟨[], '/' :: '*' :: front, by simp, ?_, ?_⟩
      · rw [between_cons (by simp [hcomment]), htext]
        simp [between, prependText]
      · rw [List.append_nil, htext, piecesFrom_of_slash,
          seeks_blockComment.piecesFrom_toLast hbody, prependText_append]
        simp [piecesFrom, prependText, ScriptMode.endsStatement]
    | cons t segments =>
      obtain ⟨front, last, hslash, hbetween, hpieces⟩ := ih hend.of_cons
      by_cases hkind : s.kind = .semicolon
      · refine ⟨[] :: front, last, hslash,
          by rw [between_semicolon hkind, hbetween]; rfl, ?_⟩
        rw [List.cons_append, ← hpieces]
        cases head with
        | semicolon => rfl
        | _ => cases hkind
      · have hcut : s.kind = .blockComment → s.text.getLast? ≠ some ';' := by
          intro hcomment hlast
          obtain ⟨rfl, -⟩ := head.eq_openBlockComment hcomment hlast
          cases tail.eq_nil
        rw [head.piecesFrom_append hkind hcut, between_cons hkind, hbetween,
          hpieces]
        cases front with
        | nil =>
          exact ⟨[], s.text ++ last, by simp [hslash], by simp [prependText],
            by simp [prependText]⟩
        | cons piece front =>
          exact ⟨(s.text ++ piece) :: front, last, hslash, rfl, rfl⟩

end Reading

/-! ## Cuts -/

/-- Nothing is lost: with a semicolon between each two of them, the pieces are
the script. -/
theorem intercalate_piecesFrom (mode : ScriptMode) (taken : Nat) (text : Text) :
    [';'].intercalate (piecesFrom mode taken text) = text := by
  have hcons : ∀ c pieces, pieces ≠ [] →
      [';'].intercalate (consPiece c pieces)
        = c :: [';'].intercalate pieces := by
    intro c pieces hne
    match pieces with
    | [piece] => simp [consPiece]
    | piece :: next :: pieces => simp [consPiece, List.intercalate_cons_cons]
  induction text generalizing mode taken with
  | nil => rfl
  | cons c cs ih =>
    cases taken with
    | succ n => rw [piecesFrom, hcons c _ (piecesFrom_ne_nil mode n cs), ih]
    | zero =>
      rw [piecesFrom]
      split
      case isTrue hcut =>
        rw [Bool.and_eq_true, beq_iff_eq] at hcut
        rw [List.intercalate_cons_of_ne_nil (piecesFrom_ne_nil .code 0 cs), ih,
          hcut.1]
        rfl
      case isFalse => rw [hcons c _ (piecesFrom_ne_nil _ _ cs), ih]

/-- The statement stands in the script between two character boundaries, each of
them at an end of the script or beside a semicolon. -/
def IsCutFrom (script statement : Text) : Prop :=
  ∃ start stop, script.IsRange start stop ∧
    script.slice? start stop = some statement ∧
    (start = 0 ∨ (script.upTo start).getLast? = some ';') ∧
    (stop = width script ∨ (script.after stop).head? = some ';')

theorem exists_parts_of_mem {pieces : List Text} {piece : Text}
    (h : piece ∈ pieces) :
    ∃ a c, [';'].intercalate pieces = a ++ (piece ++ c) ∧
      (a = [] ∨ a.getLast? = some ';') ∧ (c = [] ∨ c.head? = some ';') := by
  induction pieces with
  | nil => cases h
  | cons first pieces ih =>
    cases pieces with
    | nil =>
      rw [List.mem_singleton.1 h]
      exact ⟨[], [], by simp, .inl rfl, .inl rfl⟩
    | cons next pieces =>
      rw [List.intercalate_cons_cons]
      rcases List.mem_cons.1 h with rfl | hlater
      · exact ⟨[], ';' :: [';'].intercalate (next :: pieces), by simp, .inl rfl,
          .inr rfl⟩
      · obtain ⟨a, c, heq, ha, hc⟩ := ih hlater
        refine ⟨first ++ [';'] ++ a, c,
          by rw [heq, List.append_assoc (first ++ [';'])], .inr ?_, hc⟩
        rcases ha with rfl | hlast
        · rw [List.append_nil, List.getLast?_concat]
        · rw [List.getLast?_append, hlast]
          rfl

theorem isCutFrom_of_mem {script statement : Text}
    (h : statement ∈ splitStatements script) : IsCutFrom script statement := by
  obtain ⟨hmem, hblank⟩ := List.mem_filter.1 h
  have hne : statement ≠ [] := by
    rintro rfl
    exact absurd hblank (by decide)
  obtain ⟨a, c, htext, ha, hc⟩ := exists_parts_of_mem hmem
  rw [intercalate_piecesFrom] at htext
  subst htext
  have hrange := IsRange.of_parts (a := a) (c := c) hne
  refine ⟨width a, width a + width statement, hrange, ?_, ?_, ?_⟩
  · rw [slice?_of_isRange hrange, slice_parts]
  · rw [upTo_append_width]
    exact ha.imp_left fun hnil => by rw [hnil]; rfl
  · rw [← List.append_assoc, ← width_append, after_append_width]
    exact hc.imp_left fun hnil => by rw [hnil, List.append_nil]

/-! ## Main statement -/

theorem allBlank_of_slash {piece : Text}
    (h : '/' ∈ piece) : allBlank piece = false :=
  List.all_eq_false.2 ⟨'/', h, by decide⟩

/-- A cut comment is a statement with and without its semicolon, and the piece
behind it is blank. -/
theorem Reads.splitStatements_cut {script : Text} {segments : List Segment}
    (h : Reads script segments) (hend : EndsInOpenComment segments) :
    ∃ front last, statementTexts segments = front ++ [last ++ [';']] ∧
      splitStatements script = front ++ [last] := by
  obtain ⟨front, last, hslash, hbetween, hpieces⟩ := h.piecesFrom_cut hend
  refine ⟨front.filter (!allBlank ·), last, ?_, ?_⟩
  · have hkept : allBlank (last ++ [';']) = false :=
      allBlank_of_slash (List.mem_append_left _ hslash)
    rw [statementTexts, hbetween, List.filter_append,
      List.filter_cons_of_pos (by simp [hkept]), List.filter_nil]
  · have hdropped : allBlank [] = true := rfl
    rw [splitStatements, hpieces, List.filter_append,
      List.filter_cons_of_pos (by simp [allBlank_of_slash hslash]),
      List.filter_cons_of_neg (by simp [hdropped]), List.filter_nil]

/-- Every script has segments. Its statements are the texts between the
semicolon segments that are not blank, unless it ends in a comment that is not
closed and has a semicolon at its end: then that semicolon is missing, and
nothing else. Every statement is cut out of the script at character
boundaries. -/
theorem scripts_are_cut_at_code_semicolons_iff (script : Text) :
    (∃ segments, Reads script segments) ∧
      (∀ segments, Reads script segments →
        (splitStatements script = statementTexts segments ↔
            ¬ EndsInOpenComment segments) ∧
          (EndsInOpenComment segments →
            ∃ front last, statementTexts segments = front ++ [last ++ [';']] ∧
              splitStatements script = front ++ [last])) ∧
      ∀ statement ∈ splitStatements script, IsCutFrom script statement := by
  refine ⟨exists_reads script, ?_, fun _ => isCutFrom_of_mem⟩
  intro segments hreads
  refine ⟨⟨?_, ?_⟩, hreads.splitStatements_cut⟩
  · intro heq hend
    obtain ⟨front, last, htexts, hsplit⟩ := hreads.splitStatements_cut hend
    rw [htexts, hsplit] at heq
    simpa using List.append_cancel_left heq
  · intro hend
    rw [splitStatements, hreads.piecesFrom_eq hend, statementTexts]

/-- The characters that may open something or end a statement. -/
def openers : List Char := [';', '\'', '$', '-', '/']

theorem opensNothing_of_notMem {c : Char} (h : c ∉ openers)
    (rest : Text) : OpensNothing c rest := by
  simp only [openers, List.mem_cons, List.not_mem_nil, or_false, not_or] at h
  obtain ⟨hsemicolon, hquote, hdollar, hdash, hslash⟩ := h
  refine ⟨hsemicolon, hquote, ?_, ?_, ?_⟩
  · rintro ⟨tag, ⟨name, rfl, -⟩, hstart⟩
    exact hdollar (List.cons_prefix_cons.1 hstart).1.symm
  · intro hstart
    exact hdash (List.cons_prefix_cons.1 hstart).1.symm
  · intro hstart
    exact hslash (List.cons_prefix_cons.1 hstart).1.symm

theorem Reads.plain_append {plain rest : Text} {segments : List Segment}
    (h : Reads rest segments) (hplain : plain.all (· ∉ openers) = true) :
    Reads (plain ++ rest) (plain.map (fun c => ⟨.code, [c]⟩) ++ segments) := by
  induction plain with
  | nil => exact h
  | cons c cs ih =>
    rw [List.all_cons, Bool.and_eq_true, decide_eq_true_eq] at hplain
    exact .segment (.code (opensNothing_of_notMem hplain.1 _)) (ih hplain.2)

/-- Semicolons in code, a literal, a dollar quote and both kinds of comments. -/
def dividedScript : Text := "é;'b;''c';$t$;$t$--;\n/*;*/ ;".toList

def dividedSegments : List Segment :=
  [⟨.code, ['é']⟩, ⟨.semicolon, [';']⟩, ⟨.string, "'b;''c'".toList⟩,
    ⟨.semicolon, [';']⟩, ⟨.dollarQuoted, "$t$;$t$".toList⟩,
    ⟨.lineComment, "--;".toList⟩, ⟨.code, ['\n']⟩,
    ⟨.blockComment, "/*;*/".toList⟩, ⟨.code, [' ']⟩, ⟨.semicolon, [';']⟩]

theorem reads_dividedScript : Reads dividedScript dividedSegments := by
  have hliteral : QuotedBody ['b', ';', '\'', '\'', 'c'] :=
    .char (by decide) (.char (by decide) (.escaped (.char (by decide) .nil)))
  have hquoted : EndsAt ['$', 't', '$'] [';'] := by
    rw [EndsAt]
    decide
  have hline : '\n' ∉ [';'] := by decide
  have hblock : EndsAt commentEnd [';'] := by
    rw [EndsAt]
    decide
  have htag : IsTag ['$', 't', '$'] := by
    refine ⟨['t'], rfl, ?_⟩
    intro c hc
    rw [List.mem_singleton.1 hc]
    rfl
  have hspace : ' ' ∉ openers := by decide
  have hnewline : '\n' ∉ openers := by decide
  have hletter : 'é' ∉ openers := by decide
  have hend :=
    Reads.segment (.code (opensNothing_of_notMem hspace _))
      (.segment (.semicolon []) .done)
  have hcomments :=
    Reads.segment (.lineComment hline (.inr ⟨_, rfl⟩))
      (.segment (.code (opensNothing_of_notMem hnewline _))
        (.segment (.blockComment hblock _) hend))
  have hquotes :=
    Reads.segment (.string hliteral (by decide))
      (.segment (.semicolon _)
        (.segment (.dollarQuoted htag hquoted _) hcomments))
  exact .segment (.code (opensNothing_of_notMem hletter _))
    (.segment (.semicolon _) hquotes)

theorem scripts_are_cut_at_code_semicolons_dividedScript :
    Reads dividedScript dividedSegments ∧ ¬ EndsInOpenComment dividedSegments ∧
      splitStatements dividedScript
        = ["é".toList, "'b;''c'".toList, "$t$;$t$--;\n/*;*/ ".toList] ∧
      IsCutFrom dividedScript "'b;''c'".toList := by
  have hend : ¬ EndsInOpenComment dividedSegments := by
    rintro ⟨s, hlast, hkind, -⟩
    cases hlast
    cases hkind
  have hcut := scripts_are_cut_at_code_semicolons_iff dividedScript
  have hsplit : splitStatements dividedScript
      = ["é".toList, "'b;''c'".toList, "$t$;$t$--;\n/*;*/ ".toList] := by
    rw [((hcut.2.1 _ reads_dividedScript).1).2 hend]
    decide +kernel
  exact ⟨reads_dividedScript, hend, hsplit, hcut.2.2 _ (by rw [hsplit]; decide)⟩

/-- Ends in a comment that is not closed. -/
def openComment : Text := "garbage; COPY \"a/*\" FROM STDIN;".toList

def openCommentSegments : List Segment :=
  "garbage".toList.map (fun c => ⟨.code, [c]⟩)
    ++ ⟨.semicolon, [';']⟩
      :: (" COPY \"a".toList.map (fun c => ⟨.code, [c]⟩)
        ++ [⟨.blockComment, '/' :: '*' :: "\" FROM STDIN;".toList⟩])

/-- The last semicolon belongs to the comment, but the second statement is
without it. -/
theorem script_is_cut_in_comment_openComment :
    Reads openComment openCommentSegments ∧
      statementTexts openCommentSegments
        = ["garbage".toList, " COPY \"a/*\" FROM STDIN;".toList] ∧
      splitStatements openComment
        = ["garbage".toList, " COPY \"a/*\" FROM STDIN".toList] := by
  have hgarbage : "garbage".toList.all (· ∉ openers) = true := by decide +kernel
  have hcopy : " COPY \"a".toList.all (· ∉ openers) = true := by decide +kernel
  have hbody : ¬ commentEnd <:+: "\" FROM STDIN;".toList := by decide +kernel
  have htext : openComment
      = "garbage".toList
        ++ ([';']
          ++ (" COPY \"a".toList
            ++ ('/' :: '*' :: "\" FROM STDIN;".toList ++ []))) := by
    decide +kernel
  refine ⟨?_, by decide +kernel, by decide +kernel⟩
  rw [htext]
  exact (Reads.segment (.semicolon _)
    ((Reads.segment (.openBlockComment hbody) .done).plain_append
      hcopy)).plain_append hgarbage

end QueryAssist.Ddl
