import QueryAssist.Proofs.Token.Spelling
import QueryAssist.Query.Subquery

/-!
# Written `WITH` clauses

Syntax trees of `WITH` clauses whose bodies are plain select lists over tables,
the text that each is written as, and what it defines. The text is also a list
of lexemes, by which it is read.
-/

namespace QueryAssist.Written

open Text

/-! ## Syntax -/

/-- One or more of something, in order. -/
structure OneOrMore (α : Type) where
  first : α
  more : List α := []

def OneOrMore.toList {α : Type} (xs : OneOrMore α) : List α :=
  xs.first :: xs.more

/-- A word that is not reserved, whether or not it could start a clause. -/
structure Identifier extends Word where
  not_reserved : Keyword.isReserved text = false

/-- Identifiers with dots between them. -/
structure Path where
  first : Identifier
  more : List Identifier := []

/-- A column, with the path of its table or without. -/
structure Reference where
  qualifier : Option Path := none
  column : Identifier

/-- An item of a select list. -/
inductive Item where
  /-- `*` -/
  | all
  /-- `qualifier.*` -/
  | allOf (qualifier : Path)
  | column (reference : Reference)
  /-- `reference AS name` -/
  | renamed (reference : Reference) (name : Identifier)

/-- What is said about keeping the rows of a subquery. -/
inductive Hint where
  | none
  | materialized
  | notMaterialized

/-- A definition `name AS (SELECT items FROM tables)`. -/
structure Definition where
  name : Identifier
  hint : Hint := .none
  distinct : Bool := false
  items : OneOrMore Item
  tables : OneOrMore Path

/-- A `WITH` clause. -/
structure Clause where
  recursive : Bool := false
  definitions : OneOrMore Definition

/-! ## Text -/

def Path.text (p : Path) : String :=
  String.intercalate "." ((p.first :: p.more).map (·.text))

def Reference.text (r : Reference) : String :=
  match r.qualifier with
  | none => r.column.text
  | some q => q.text ++ "." ++ r.column.text

def Item.text : Item → String
  | all => "*"
  | allOf q => q.text ++ ".*"
  | column r => r.text
  | renamed r name => r.text ++ " AS " ++ name.text

def Hint.text : Hint → String
  | none => ""
  | materialized => "MATERIALIZED "
  | notMaterialized => "NOT MATERIALIZED "

def Definition.text (d : Definition) : String :=
  d.name.text ++ " AS " ++ d.hint.text ++ "(SELECT "
    ++ (if d.distinct then "DISTINCT " else "")
    ++ String.intercalate ", " (d.items.toList.map Item.text) ++ " FROM "
    ++ String.intercalate ", " (d.tables.toList.map Path.text) ++ ")"

/-- The text of a query that starts with the clause. -/
def Clause.text (clause : Clause) : String :=
  "WITH " ++ (if clause.recursive then "RECURSIVE " else "")
    ++ String.intercalate ", " (clause.definitions.toList.map Definition.text)
    ++ " SELECT 1"

example :
    let ident (text : String) (hword : isWordText text.toList = true)
      (hfree : Keyword.isReserved text = false) :
      Identifier := ⟨⟨text, hword⟩, hfree⟩
    let t := ident "t" (by decide) (by decide)
    let d : Definition :=
      { name := ident "n1" (by decide) (by decide), hint := .notMaterialized,
        distinct := true
        items :=
          { first := .allOf { first := t },
            more :=
              [.renamed { column := t } (ident "a" (by decide) (by decide))] }
        tables := { first := { first := ident "s" (by decide) (by decide),
                               more := [t] } } }
    Clause.text { recursive := true, definitions := { first := d } }
      = "WITH RECURSIVE n1 AS NOT MATERIALIZED "
        ++ "(SELECT DISTINCT t.*, t AS a FROM s.t) SELECT 1" := by
  decide

/-! ## What is defined -/

/-- The column that an item puts out, unless it is a wildcard. -/
def Item.column? : Item → Option OutputColumn
  | all | allOf _ => none
  | column r =>
    some { name := r.column.text, sourceTable := r.qualifier.map Path.text,
           sourceColumn := some r.column.text }
  | renamed r name =>
    some { name := name.text, expression := some r.text,
           sourceTable := r.qualifier.map Path.text,
           sourceColumn := some r.column.text }

/-- The wildcard that an item is. -/
def Item.wildcard? : Item → Option Wildcard
  | all => some .all
  | allOf q => some (.qualified (upper q.text))
  | column _ | renamed .. => none

def Definition.projection (d : Definition) : Projection :=
  { columns := d.items.toList.filterMap Item.column?,
    wildcards := d.items.toList.filterMap Item.wildcard? }

/-! ## Lexemes -/

/-- The keywords that clauses are written with. -/
inductive GrammarWord where
  | WITH
  | RECURSIVE
  | AS
  | NOT
  | MATERIALIZED
  | SELECT
  | DISTINCT
  | FROM

def GrammarWord.text : GrammarWord → String
  | WITH => "WITH"
  | RECURSIVE => "RECURSIVE"
  | AS => "AS"
  | NOT => "NOT"
  | MATERIALIZED => "MATERIALIZED"
  | SELECT => "SELECT"
  | DISTINCT => "DISTINCT"
  | FROM => "FROM"

theorem GrammarWord.isWord (word : GrammarWord) :
    isWordText word.text.toList = true := by
  cases word <;> decide

def kw (word : GrammarWord) : Symbol := .word ⟨word.text, word.isWord⟩

def Identifier.symbol (i : Identifier) : Symbol := .word i.toWord

/-- Identifiers with a dot before each. -/
def dotted (more : List Identifier) : List Lexeme :=
  more.flatMap fun i => [.tight .dot, .tight i.symbol]

def Path.lexemes (p : Path) : List Lexeme :=
  .apart p.first.symbol :: dotted p.more

/-- The path that a reference is written as. -/
def Reference.path (r : Reference) : Path :=
  match r.qualifier with
  | none => { first := r.column }
  | some q => { first := q.first, more := q.more ++ [r.column] }

def Item.lexemes : Item → List Lexeme
  | all => [.apart .star]
  | allOf q => q.lexemes ++ [.tight .dot, .tight .star]
  | column r => r.path.lexemes
  | renamed r name => r.path.lexemes ++ [.apart (kw .AS), .apart name.symbol]

/-- Lexemes with commas between them. -/
def listed {α : Type} (lexemes : α → List Lexeme)
    (xs : OneOrMore α) : List Lexeme :=
  lexemes xs.first ++ xs.more.flatMap fun x => .tight .comma :: lexemes x

def Hint.lexemes : Hint → List Lexeme
  | none => []
  | materialized => [.apart (kw .MATERIALIZED)]
  | notMaterialized => [.apart (kw .NOT), .apart (kw .MATERIALIZED)]

/-- The select list of a definition. -/
def Definition.selectList (d : Definition) : List Lexeme :=
  (if d.distinct then [.apart (kw .DISTINCT)] else [])
    ++ listed Item.lexemes d.items

/-- What stands between the parentheses of a definition. -/
def Definition.body (d : Definition) : List Lexeme :=
  .tight (kw .SELECT)
    :: (d.selectList ++ .apart (kw .FROM) :: listed Path.lexemes d.tables)

def Definition.lexemes (d : Definition) : List Lexeme :=
  .apart d.name.symbol :: .apart (kw .AS) :: (d.hint.lexemes
    ++ .apart .leftParen :: (d.body ++ [.tight .rightParen]))

/-- What stands after the `WITH` of a clause. -/
def Clause.lexemes (clause : Clause) : List Lexeme :=
  (if clause.recursive then [.apart (kw .RECURSIVE)] else [])
    ++ listed Definition.lexemes clause.definitions

/-! ## The lexemes spell the text -/

theorem spell_dotted (first : Identifier) (more : List Identifier) :
    first.text.toList ++ spell (dotted more)
      = (Path.text { first, more }).toList := by
  induction more generalizing first with
  | nil => simp [dotted, Path.text]
  | cons i more ih =>
    have hsplit : Path.text { first, more := i :: more }
        = first.text ++ "." ++ Path.text { first := i, more } :=
      String.intercalate_cons_cons
    rw [hsplit, String.toList_append, String.toList_append, ← ih i]
    simp [dotted, Identifier.symbol, Symbol.chars]

theorem spell_path (p : Path) : spell p.lexemes = ' ' :: p.text.toList := by
  rw [← spell_dotted p.first p.more]
  rfl

theorem path_lexemes_qualified (q : Path) (column : Identifier) :
    Path.lexemes { first := q.first, more := q.more ++ [column] }
      = q.lexemes ++ [.tight .dot, .tight column.symbol] := by
  simp [Path.lexemes, dotted]

theorem spell_reference (r : Reference) :
    spell r.path.lexemes = ' ' :: r.text.toList := by
  unfold Reference.path Reference.text
  rcases r.qualifier with _ | q
  · exact spell_path _
  · dsimp only
    rw [path_lexemes_qualified, spell_append, spell_path]
    simp [Identifier.symbol, Symbol.chars]

theorem spell_item (item : Item) :
    spell item.lexemes = ' ' :: item.text.toList := by
  cases item with
  | all => rfl
  | allOf q =>
    rw [Item.lexemes, spell_append, spell_path]
    simp [Item.text, Symbol.chars]
  | column r => exact spell_reference r
  | renamed r name =>
    rw [Item.lexemes, spell_append, spell_reference]
    simp [Item.text, Symbol.chars, kw, GrammarWord.text, Identifier.symbol]

/-- Lexemes with commas between them spell the texts with commas
between them. -/
theorem spell_listed {α : Type} {lexemes : α → List Lexeme} {text : α → String}
    (h : ∀ x, spell (lexemes x) = ' ' :: (text x).toList) (xs : OneOrMore α) :
    spell (listed lexemes xs)
      = ' ' :: (String.intercalate ", " (xs.toList.map text)).toList := by
  obtain ⟨first, more⟩ := xs
  induction more generalizing first with
  | nil => simp [listed, OneOrMore.toList, h]
  | cons x more ih =>
    have hrest : spell (listed lexemes ⟨first, x :: more⟩)
        = spell (lexemes first)
          ++ (',' :: spell (listed lexemes ⟨x, more⟩)) := by
      simp [listed, Symbol.chars]
    have hsplit : String.intercalate ", "
          ((OneOrMore.toList ⟨first, x :: more⟩).map text)
        = text first ++ ", "
          ++ String.intercalate ", " ((OneOrMore.toList ⟨x, more⟩).map text) :=
      String.intercalate_cons_cons
    rw [hrest, ih x, h, hsplit]
    simp

theorem spell_definition (d : Definition) :
    spell d.lexemes = ' ' :: d.text.toList := by
  have hitems := spell_listed spell_item d.items
  have htables := spell_listed spell_path d.tables
  rcases hdistinct : d.distinct with _ | _ <;> cases hhint : d.hint <;>
    simp [Definition.lexemes, Definition.text, Definition.body,
      Definition.selectList, Hint.lexemes, Hint.text, hitems, htables,
      hdistinct, hhint, kw, GrammarWord.text, Identifier.symbol, Symbol.chars]

theorem text_eq_spell (clause : Clause) :
    clause.text.toList
      = (kw .WITH).chars ++ (spell clause.lexemes ++ " SELECT 1".toList) := by
  have hdefinitions := spell_listed spell_definition clause.definitions
  rcases hrecursive : clause.recursive with _ | _ <;>
    simp [Clause.text, Clause.lexemes, hdefinitions, hrecursive, kw,
      GrammarWord.text, Symbol.chars]

/-! ## The lexemes are read -/

theorem reads_path (p : Path) : Reads p.lexemes :=
  (Reads.apart p.first.symbol).append
    (Reads.flatMap fun i _ => Reads.behind_dot i.symbol)

theorem reads_item (item : Item) : Reads item.lexemes := by
  cases item with
  | all => exact Reads.apart .star
  | allOf q => exact (reads_path q).append (Reads.behind_dot .star)
  | column r => exact reads_path r.path
  | renamed r name =>
    exact (reads_path r.path).append
      ((Reads.apart _).append (Reads.apart name.symbol))

theorem reads_listed {α : Type} {lexemes : α → List Lexeme}
    (h : ∀ x, Reads (lexemes x))
    (xs : OneOrMore α) : Reads (listed lexemes xs) :=
  (h xs.first).append (Reads.flatMap fun x _ => Reads.comma.append (h x))

theorem reads_hint (hint : Hint) : Reads hint.lexemes := by
  cases hint with
  | none => exact Reads.nil
  | materialized => exact Reads.apart _
  | notMaterialized => exact (Reads.apart _).append (Reads.apart _)

theorem reads_definition (d : Definition) : Reads d.lexemes := by
  have hselect : Reads d.selectList := by
    unfold Definition.selectList
    refine Reads.append ?_ (reads_listed reads_item d.items)
    split
    · exact Reads.apart _
    · exact Reads.nil
  -- `SELECT` has no space in front, so it is read together with its
  -- parenthesis.
  have hrest : Reads
      (d.selectList ++ [.apart (kw .FROM)] ++ listed Path.lexemes d.tables
        ++ [.tight .rightParen]) :=
    ((hselect.append (Reads.apart _)).append
      (reads_listed reads_path d.tables)).append Reads.rightParen
  have hall :=
    ((Reads.apart d.name.symbol).append (Reads.apart (kw .AS))).append
      ((reads_hint d.hint).append
        ((Reads.behind_leftParen (kw .SELECT)).append hrest))
  simpa [Definition.lexemes, Definition.body] using hall

theorem reads_clause (clause : Clause) : Reads clause.lexemes := by
  unfold Clause.lexemes
  refine Reads.append ?_ (reads_listed reads_definition clause.definitions)
  split
  · exact Reads.apart _
  · exact Reads.nil

end QueryAssist.Written
