import QueryAssist.Completion.Candidate
import QueryAssist.Completion.Context
import QueryAssist.Text.Comment

/-!
# Completion

The ranked list of what may be written at a cursor.
-/

namespace QueryAssist

/-- A candidate with its rank. -/
structure CompletionItem where
  candidate : Candidate
  /-- Compares as text in the order of the list. -/
  sortText : String
  deriving DecidableEq, Repr

/-! ## Ranking -/

/-- Whether two candidates are offered as one: same kind, and the same label but
for the case of ASCII letters. -/
def Candidate.repeats (a b : Candidate) : Bool :=
  a.kind == b.kind && Text.sameAscii a.label b.label

/-- Candidates without those that repeat an earlier one; `seen` holds
earlier ones. -/
def distinctCandidates (seen : List Candidate) : List Candidate → List Candidate
  | [] => []
  | c :: rest =>
    if seen.any (·.repeats c) then distinctCandidates seen rest
    else c :: distinctCandidates (c :: seen) rest

/-- A number with zeros in front, to at least `n` digits. -/
def padNumber (n number : Nat) : List Char :=
  let digits := Nat.toDigits 10 number
  List.replicate (n - digits.length) '0' ++ digits

/-- The text by which the candidate at a place of the list is sorted: its tier
and its place. -/
def sortText (candidate : Candidate) (place : Nat) : String :=
  String.ofList (padNumber 1 candidate.kind.tier ++ padNumber 5 place)

/-- The list of completions, without repetitions. -/
def rank (candidates : List Candidate) : List CompletionItem :=
  (distinctCandidates [] candidates).mapIdx fun place candidate =>
    { candidate, sortText := sortText candidate place }

/-! ## Candidates by context -/

/-- Columns of the tables in scope, and the words of the dialect unless there is
exactly one table and it is known. -/
def unqualifiedCandidates (r : Resolver) (bindings : Bindings)
    (words : List Candidate) : List Candidate :=
  let sources :=
    bindings.tables.filterMap fun t => r.source? t.name bindings.visible
  let columns := sources.flatMap r.columnCandidates
  if sources.length = 1 ∧ bindings.tables.length = 1 then columns
  else columns ++ words

/-- Columns of what a qualifier names, else the tables of the schema of that
name, else the words of the dialect. -/
def qualifiedCandidates (r : Resolver) (bindings : Bindings)
    (words : List Candidate) (qualifier : String) : List Candidate :=
  match r.source? (bindings.target qualifier) bindings.visible with
  | some source => r.columnCandidates source
  | none =>
    match r.catalog.bind (·.schema? qualifier) with
    | some schema => schema.candidates
    | none => words

/-- What may be offered in a context. -/
def candidatesFor (r : Resolver) (bindings : Bindings) (dialect : Dialect)
    (context : CursorContext) : List Candidate :=
  let named := bindings.candidates ++ (r.catalog.map Catalog.candidates).getD []
  let words := dialect.vocabulary.candidates
  match context.kind with
  | .table => named
  | .schema =>
    ((r.catalog.bind (·.schema? (context.qualifier.getD ""))).map
      Schema.candidates).getD []
  | .column =>
    match context.qualifier with
    | some qualifier => qualifiedCandidates r bindings words qualifier
    | none => unqualifiedCandidates r bindings words
  | .general => named ++ words

/-- Completions for a cursor, best first. In a comment there are none. -/
def complete (text : Text) (offset : Nat) (catalog : Option Catalog := none)
    (dialect : Dialect := .postgresql) : List CompletionItem :=
  let offset := text.floor offset
  if text.inComment offset then []
  else
    let document := Document.ofText text
    let r : Resolver := { document, catalog }
    rank (candidatesFor r (r.bindingsAt offset) dialect
      (document.contextAt offset))

end QueryAssist
