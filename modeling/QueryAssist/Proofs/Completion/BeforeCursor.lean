import QueryAssist.Completion.Context
import QueryAssist.Proofs.Token.Truncation

/-!
# What stands behind the cursor

The context of a cursor is judged by the tokens that end before the word at the
cursor. What stands behind the cursor can change a token only if the token lies
across it, and a word across the cursor is not among those tokens. So the text
behind the cursor does not matter to the kind of the context or to its
qualifier, as long as nothing else lies across the cursor.
-/

namespace QueryAssist

open Text

/-! ## The word at the cursor -/

namespace Text

/-- What stands before the word at the end of a text. -/
def beforeWord (text : Text) : Text :=
  (text.reverse.dropWhile isWordChar).reverse

/-- The word at the end of a text; empty if the text does not end in a
word character. -/
def endingWord (text : Text) : Text :=
  (text.reverse.takeWhile isWordChar).reverse

theorem beforeWord_append_endingWord (text : Text) :
    text.beforeWord ++ text.endingWord = text := by
  rw [beforeWord, endingWord, ← List.reverse_append,
    List.takeWhile_append_dropWhile, List.reverse_reverse]

theorem getLast?_beforeWord (text : Text) :
    ∀ c ∈ text.beforeWord.getLast?, isWordChar c = false := by
  intro c hc
  rw [beforeWord, List.getLast?_reverse, Option.mem_def] at hc
  have hstop := List.head?_dropWhile_not isWordChar text.reverse
  rw [hc] at hstop
  simpa using hstop

/-- At the end of a first part, the word of the part is the word at
the cursor. -/
theorem wordStart_append (a b : Text) :
    (a ++ b).wordStart (width a) = width a.beforeWord := by
  have hwidth := congrArg width (beforeWord_append_endingWord a)
  rw [width_append] at hwidth
  rw [wordStart, upTo_append_width,
    ← width_reverse (a.reverse.takeWhile isWordChar)]
  show width a - width a.endingWord = _
  omega

end Text

/-! ## The tokens before the word -/

/-- The tokens before the word at the end of a first part are those of the part,
if nothing but a word goes on behind it. -/
theorem filter_tokenize_append {front behind : Text}
    (hcut : ∀ t ∈ tokenize (front ++ behind),
      t.start < width front → width front < t.stop → t.kind = .word) :
    (tokenize (front ++ behind)).filter (·.stop ≤ width front.beforeWord)
      = (tokenize front).filter (·.stop ≤ width front.beforeWord) := by
  have hparts := beforeWord_append_endingWord front
  have hwhole : front.beforeWord ++ (front.endingWord ++ behind)
      = front ++ behind := by rw [← List.append_assoc, hparts]
  have htokens := filter_tokensFrom_append 0 0 (getLast?_beforeWord front) (by
    rw [hwhole, hparts, Nat.zero_add]
    exact hcut)
  rwa [hwhole, hparts, Nat.zero_add] at htokens

/-- The statement at the end of a first part starts where it does
without the rest. -/
theorem statementBounds_start_append (a b : Text) :
    ((a ++ b).statementBounds (width a)).1
      = width a - width (a.reverse.takeWhile (· != ';')) := by
  rw [statementBounds_eq, upTo_append_width]

namespace Document

/-- The tokens before the word at the end of a first part of the masked text. -/
theorem tokensBefore_append {document : Document} {front behind : Text}
    (hclean : document.clean = front ++ behind) :
    document.tokensBefore (width front)
      = ((document.tokens.filter (·.stop ≤ width front.beforeWord)).filter
        (width front - width (front.reverse.takeWhile (· != ';'))
          ≤ ·.start)).reverse := by
  rw [List.filter_filter, ← wordStart_append front behind,
    ← statementBounds_start_append front behind, ← hclean]
  rfl

theorem expectation_append {document : Document} {front behind : Text}
    (hclean : document.clean = front ++ behind) :
    ((document.contextAt (width front)).kind,
        (document.contextAt (width front)).qualifier)
      = expectation (width front.beforeWord)
        (document.tokensBefore (width front)) := by
  have hfloor : document.clean.floor (width front) = width front := by
    rw [hclean, floor, upTo_append_width]
  rw [← wordStart_append front behind, ← hclean]
  simp only [contextAt, hfloor]

end Document

/-- At a cursor that splits no delimiter of a comment, and across which nothing
but a word lies, the kind of the context and its qualifier are those of the text
that ends at the cursor. -/
theorem context_ignores_text_behind (text : Text) (offset : Nat)
    (hboundary : text.isBoundary offset = true)
    (hmasked : (text.upTo offset).sanitize <+: text.sanitize)
    (hcut : ∀ t ∈ tokenize text.sanitize,
      t.start < offset → offset < t.stop → t.kind = .word) :
    (classify text offset).kind = (classify (text.upTo offset) offset).kind ∧
      (classify text offset).qualifier
        = (classify (text.upTo offset) offset).qualifier := by
  have hfloor : width (text.upTo offset) = offset := by
    simpa [isBoundary, floor] using hboundary
  generalize text.upTo offset = part at hmasked hfloor ⊢
  obtain ⟨behind, hbehind⟩ := hmasked
  have hwhole : (Document.ofText text).clean = part.sanitize ++ behind :=
    hbehind.symm
  have hpart : (Document.ofText part).clean = part.sanitize ++ [] :=
    (List.append_nil _).symm
  obtain rfl : width part.sanitize = offset := by
    rw [← hfloor, sanitize, width_maskFrom]
  have hread : (Document.ofText text).tokens
      = tokenize (part.sanitize ++ behind) := congrArg tokenize hwhole
  have htokens : (Document.ofText text).tokensBefore (width part.sanitize)
      = (Document.ofText part).tokensBefore (width part.sanitize) := by
    rw [← hbehind] at hcut
    rw [Document.tokensBefore_append hwhole, Document.tokensBefore_append hpart,
      hread, filter_tokenize_append hcut]
    rfl
  have hexpected := Document.expectation_append hwhole
  rw [htokens, ← Document.expectation_append hpart] at hexpected
  exact Prod.mk.inj hexpected

/-- A literal, a comment, a number and a semicolon before the cursor, and the
rest of a word and of the statement behind it. -/
def halfTypedQuery : Text :=
  "DELETE FROM t; SELECT 1.5, 'a;' /* e. */, e.name FROM emp e; SELECT 2".toList

theorem context_ignores_text_behind_halfTypedQuery :
    halfTypedQuery.isBoundary 46 = true ∧
      (halfTypedQuery.upTo 46).sanitize <+: halfTypedQuery.sanitize ∧
      (∃ t ∈ tokenize halfTypedQuery.sanitize, t.start < 46 ∧ 46 < t.stop) ∧
      (classify (halfTypedQuery.upTo 46) 46).kind = .column ∧
      (classify (halfTypedQuery.upTo 46) 46).qualifier = some "e" ∧
      (classify halfTypedQuery 46).kind
        = (classify (halfTypedQuery.upTo 46) 46).kind ∧
      (classify halfTypedQuery 46).qualifier
        = (classify (halfTypedQuery.upTo 46) 46).qualifier := by
  have hboundary : halfTypedQuery.isBoundary 46 = true := by decide +kernel
  have hmasked : (halfTypedQuery.upTo 46).sanitize
      <+: halfTypedQuery.sanitize := by decide +kernel
  have hcut : ∀ t ∈ tokenize halfTypedQuery.sanitize,
      t.start < 46 → 46 < t.stop → t.kind = .word := by decide +kernel
  exact ⟨hboundary, hmasked, by decide +kernel, by decide +kernel,
    by decide +kernel,
    context_ignores_text_behind halfTypedQuery 46 hboundary hmasked hcut⟩

end QueryAssist
