import QueryAssist.Catalog.Basic
import QueryAssist.Query.Document
import QueryAssist.Text.Statement

/-!
# Scopes and bindings

Where an offset lies among the subquery definitions of a document, and which
tables, aliases and subqueries can be named there.
-/

namespace QueryAssist

/-- Where an offset lies. -/
inductive Scope where
  /-- In the body of a subquery. -/
  | subquery (subquery : Subquery)
  /-- After the last subquery definition. -/
  | main
  /-- Neither. -/
  | unstructured
  deriving DecidableEq, Repr

/-- What rows are read from. -/
inductive Source where
  | subquery (subquery : Subquery)
  | table (table : Table)
  deriving DecidableEq, Repr

namespace Source

def name : Source → String
  | subquery s => s.name
  | table t => t.name

/-- The source's kind and name. -/
def describe : Source → String
  | subquery s => "subquery " ++ s.name
  | table t => "table " ++ t.name

end Source

/-- A column with the definition it comes from. -/
inductive ColumnRef where
  | subquery (subquery : Subquery) (column : OutputColumn)
  | table (table : Table) (column : Column)
  deriving DecidableEq, Repr

namespace ColumnRef

def name : ColumnRef → String
  | subquery _ c => c.name
  | table _ c => c.name

/-- The source that defines the column. -/
def owner : ColumnRef → Source
  | subquery s _ => .subquery s
  | table t _ => .table t

end ColumnRef

/-- The names that can be used at an offset. -/
structure Bindings where
  scope : Scope
  /-- The bytes whose `FROM` and `JOIN` clauses bind names. -/
  span : Nat × Nat
  /-- Tables named in the span, in order. -/
  tables : List TableRef
  /-- Path of the table for every alias, short name and path, in upper case. -/
  aliases : Entries String
  /-- Subqueries that can be named. -/
  visible : List Subquery
  deriving DecidableEq, Repr

/-- The aliases with those of one more table: its alias, its short name and its
path, as far as they are new. -/
def bindTable (aliases : Entries String) (table : TableRef) : Entries String :=
  let aliases :=
    match table.aliasName with
    | some aliasName => aliases.putNew (Text.upper aliasName) table.name
    | none => aliases
  (aliases.putNew (Text.upper table.shortName) table.name).putNew table.upper
    table.name

/-- The aliases of a list of tables; the first use of a name wins. -/
def aliasesOf (tables : List TableRef) : Entries String :=
  tables.foldl bindTable []

/-- The first subquery of this name. -/
def findSubquery (subqueries : List Subquery)
    (name : String) : Option Subquery :=
  let name := Text.upper name
  subqueries.find? (·.name == name)

namespace Bindings

/-- The table path that a name is bound to. -/
def resolve (bindings : Bindings) (name : String) : Option String :=
  bindings.aliases.get? (Text.upper name)

/-- The table path that a name is bound to, or else the name. -/
def target (bindings : Bindings) (name : String) : String :=
  (bindings.resolve name).getD name

/-- The first visible subquery of this name. -/
def subquery? (bindings : Bindings) (name : String) : Option Subquery :=
  findSubquery bindings.visible name

end Bindings

/-- A document read against a catalog, if one is given. -/
structure Resolver where
  document : Document
  catalog : Option Catalog

namespace Resolver

def subqueries (r : Resolver) : List Subquery := r.document.subqueries

/-- Where the last definition ends. -/
def lastStop (r : Resolver) : Option Nat :=
  (r.subqueries.map Subquery.stop).max?

def scopeAt (r : Resolver) (offset : Nat) : Scope :=
  match r.subqueries.find? (·.containsBody offset) with
  | some s => .subquery s
  | none =>
    match r.lastStop with
    | some stop => if stop < offset then .main else .unstructured
    | none => .unstructured

/-- The bytes whose clauses bind names for a scope: the body, or the statement,
in the main query cut off at the last definition. -/
def span (r : Resolver) (scope : Scope) (offset : Nat) : Nat × Nat :=
  match scope with
  | .subquery s => (s.bodyStart, s.bodyStop)
  | .main =>
    let (start, stop) := r.document.clean.statementBounds offset
    (max start (r.lastStop.getD 0), stop)
  | .unstructured => r.document.clean.statementBounds offset

/-- The subqueries that can be named in a scope: up to the current one in a
body, all in the main query, those that end before the offset elsewhere. -/
def visible (r : Resolver) (scope : Scope) (offset : Nat) : List Subquery :=
  match scope with
  | .subquery current => r.subqueries.filter (·.start ≤ current.start)
  | .main => r.subqueries
  | .unstructured => r.subqueries.filter (·.stop ≤ offset)

/-- Where an offset cuts tokens in order: the number of those in front that
start before it. -/
def cutAt (tokens : List Token) (offset : Nat) : Nat :=
  (tokens.takeWhile (·.start < offset)).length

/-- The tokens that start in a span. -/
def tokensIn (r : Resolver) (span : Nat × Nat) : List Token :=
  let first := cutAt r.document.tokens span.1
  let last := cutAt r.document.tokens span.2
  (r.document.tokens.take (max last first)).drop first

section

variable {t : Token} {offset : Nat} (ts : List Token)

theorem cutAt_cons_of_lt (h : t.start < offset) :
    cutAt (t :: ts) offset = cutAt ts offset + 1 := by
  rw [cutAt, List.takeWhile_cons_of_pos (by simpa using h), List.length_cons,
    cutAt]

theorem cutAt_cons_of_le
    (h : offset ≤ t.start) : cutAt (t :: ts) offset = 0 := by
  rw [cutAt, List.takeWhile_cons_of_neg (by simpa using h), List.length_nil]

theorem take_cutAt (tokens : List Token) (offset : Nat) :
    tokens.take (cutAt tokens offset) = tokens.takeWhile (·.start < offset) :=
  (List.prefix_iff_eq_take.1 (List.takeWhile_prefix _)).symm

/-- Nothing stands in a range that stops before it starts. -/
theorem takeWhile_dropWhile_of_le {start stop : Nat} (h : stop ≤ start) :
    (ts.dropWhile (·.start < start)).takeWhile (·.start < stop) = [] := by
  induction ts with
  | nil => rfl
  | cons t ts ih =>
    by_cases hstart : t.start < start
    · rw [List.dropWhile_cons_of_pos (by simpa using hstart), ih]
    · rw [List.dropWhile_cons_of_neg (by simpa using hstart),
        List.takeWhile_cons_of_neg]
      simp only [decide_eq_true_eq]
      omega

end

/-- Behind the first cut stand the tokens from its offset on, and of these the
second keeps those before its own. -/
theorem tokensIn_eq (r : Resolver) (span : Nat × Nat) :
    r.tokensIn span
      = (r.document.tokens.dropWhile (·.start < span.1)).takeWhile
        (·.start < span.2) := by
  obtain ⟨start, stop⟩ := span
  rw [tokensIn]
  simp only
  induction r.document.tokens with
  | nil => rfl
  | cons t ts ih =>
    by_cases hstart : t.start < start
    · rw [cutAt_cons_of_lt ts hstart,
        List.dropWhile_cons_of_pos (by simpa using hstart)]
      by_cases hstop : t.start < stop
      · rw [cutAt_cons_of_lt ts hstop, Nat.succ_max_succ, List.take_succ_cons,
          List.drop_succ_cons, ih]
      · rw [cutAt_cons_of_le ts (Nat.le_of_not_lt hstop), Nat.zero_max,
          List.take_succ_cons, List.drop_succ_cons, List.drop_take_self,
          takeWhile_dropWhile_of_le ts (by omega)]
    · have hle := Nat.le_of_not_lt hstart
      rw [cutAt_cons_of_le ts hle, Nat.max_zero, List.drop_zero, take_cutAt,
        List.dropWhile_cons_of_neg (by simpa using hle)]

/-- Bindings of a scope from its span and the subqueries it sees. -/
def bind (r : Resolver) (scope : Scope) (span : Nat × Nat)
    (visible : List Subquery) : Bindings :=
  let tables := tableRefs (r.tokensIn span)
  { scope, span, tables, aliases := aliasesOf tables, visible }

/-- The names that can be used at an offset. -/
def bindingsAt (r : Resolver) (offset : Nat) : Bindings :=
  let scope := r.scopeAt offset
  r.bind scope (r.span scope offset) (r.visible scope offset)

/-- The subqueries that are defined before this one. -/
def declaredBefore (r : Resolver) (s : Subquery) : List Subquery :=
  r.subqueries.filter (·.start < s.start)

/-- The names that the body of a subquery can use when its columns are worked
out: only earlier subqueries count. -/
def bodyBindings (r : Resolver) (s : Subquery) : Bindings :=
  r.bind (.subquery s) (s.bodyStart, s.bodyStop) (r.declaredBefore s)

/-- The visible subquery of this name, or else the table of the catalog. -/
def source? (r : Resolver) (name : String)
    (visible : List Subquery) : Option Source :=
  match findSubquery visible name with
  | some s => some (.subquery s)
  | none => (r.catalog.bind (·.table? name)).map .table

end Resolver

end QueryAssist
