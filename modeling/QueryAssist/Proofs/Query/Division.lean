import QueryAssist.Proofs.Query.Closing
import QueryAssist.Proofs.Query.Recasting
import QueryAssist.Proofs.Query.TableParts
import QueryAssist.Proofs.Token.Division

/-!
# Table references on both sides of a semicolon

No path, alias or list of tables goes on past a semicolon, and what is read does
not depend on where the tokens stand. The one thing that a semicolon does not
end is a parenthesis: if those before it are closed, the tables named on both
sides are the tables of each side on its own.
-/

namespace QueryAssist

/-! ## Tokens moved on -/

/-- Tokens moved on by `n` bytes keep their names. -/
def Recasting.shifting (n : Nat) : Recasting :=
  { refl with
    token := Token.shift n
    place := (· + n)
    kind_token := fun _ => rfl
    fold_token := fun _ => rfl
    name_token := fun _ => rfl
    start_token := fun _ => rfl
    stop_token := fun _ => rfl }

/-- The reference moved on by `n` bytes. -/
def TableRef.shift (n : Nat) (table : TableRef) : TableRef :=
  { table with start := table.start + n, stop := table.stop + n }

theorem Recasting.shifting_table (n : Nat) :
    (shifting n).table = TableRef.shift n := by
  funext table
  have halias : table.aliasName.map id = table.aliasName := Option.map_id_apply
  simp only [Recasting.table, shifting, refl, halias]
  rfl

theorem tableRefs_shift (n : Nat) (ts : List Token) :
    tableRefs (ts.map (Token.shift n))
      = (tableRefs ts).map (TableRef.shift n) := by
  rw [← Recasting.shifting_table, ← (Recasting.shifting n).tableRefs_map]
  rfl

/-! ## Up to a semicolon -/

/-- A question that the semicolon does not pass has the same answer about the
token in front. -/
theorem any_head?_append {p : Token → Bool} {stop : Token} (hp : p stop = false)
    (ts later : List Token) :
    (ts ++ stop :: later).head?.any p = ts.head?.any p := by
  cases ts with
  | nil => exact hp
  | cons t ts => rfl

section Stop

variable {stop : Token} (hstop : stop.kind = .semicolon) (later : List Token)
include hstop

theorem isName_of_semicolon : stop.isName = false := by
  simp [Token.isName, hstop]

theorem isIdentifier_of_semicolon : stop.isIdentifier = false := by
  simp [Token.isIdentifier, hstop]

theorem isKeyword_of_semicolon (keyword : String) :
    stop.isKeyword keyword = false := by
  simp [Token.isKeyword, Token.isOneOf, hstop]

theorem pathTail_append_stop (ts : List Token) :
    pathTail (ts ++ stop :: later) = pathTail ts := by
  fun_induction pathTail ts with
  | case1 dot t rest h ih => simp [pathTail, h, ih]
  | case2 dot t rest h => simp [pathTail, h]
  | case3 ts h =>
    rcases ts with _ | ⟨dot, _ | ⟨t, rest⟩⟩
    · cases later <;> simp [pathTail, hstop]
    · simp [pathTail, isName_of_semicolon hstop]
    · exact absurd rfl (h dot t rest)

theorem readAlias_append_stop (ts : List Token) :
    readAlias (ts ++ stop :: later) = readAlias ts := by
  rcases ts with _ | ⟨t, _ | ⟨a, rest⟩⟩
  · simp [readAlias, isKeyword_of_semicolon hstop,
      isIdentifier_of_semicolon hstop]
  · simp [readAlias, isName_of_semicolon hstop]
  · rfl

theorem readTableRef_append_stop (ts : List Token) :
    readTableRef (ts ++ stop :: later) = readTableRef ts := by
  cases ts with
  | nil => simp [readTableRef, isIdentifier_of_semicolon hstop]
  | cons first rest =>
    have hle := pathTail_le rest
    have hcall : (stop.kind == .leftParen) = false := by simp [hstop]
    simp only [List.cons_append, readTableRef, pathTail_append_stop hstop,
      List.drop_append_of_le_length hle, List.take_append_of_le_length hle,
      any_head?_append (p := (·.kind == .leftParen)) hcall,
      readAlias_append_stop hstop]

theorem readTableList_append_stop (commas : Bool) {skip : Nat} {ts : List Token}
    (hskip : skip ≤ ts.length) :
    readTableList commas skip (ts ++ stop :: later)
      = readTableList commas skip ts := by
  induction ts generalizing skip with
  | nil =>
    have hzero : skip = 0 := by simpa using hskip
    subst hzero
    simp [readTableList, readTableRef, isKeyword_of_semicolon hstop,
      isIdentifier_of_semicolon hstop]
  | cons t ts ih =>
    cases skip with
    | succ k => exact ih (by simpa using hskip)
    | zero =>
      have honly : (if t.isKeyword "ONLY" then 1 else 0)
          ≤ (t :: ts).length := by
        rw [List.length_cons]
        split <;> omega
      rw [List.cons_append, readTableList, readTableList, ← List.cons_append]
      generalize (if t.isKeyword "ONLY" then 1 else 0) = only at honly
      simp only [List.drop_append_of_le_length honly,
        readTableRef_append_stop hstop]
      rcases hread : readTableRef ((t :: ts).drop only) with _ | ⟨table, used⟩
      · rfl
      · have hused := readTableRef_le hread
        rw [List.length_drop] at hused
        have hend : only + used ≤ (t :: ts).length := by omega
        have hcomma : (stop.kind == .comma) = false := by simp [hstop]
        simp only [List.drop_append_of_le_length hend,
          any_head?_append (p := (·.kind == .comma)) hcomma]
        split
        · rename_i hgoes
          -- the list goes on behind a comma, which stands in front of the
          -- semicolon
          have hmore : only + used ≤ ts.length := by
            rcases hdrop : (t :: ts).drop (only + used) with _ | ⟨comma, behind⟩
            · simp [hdrop] at hgoes
            · have := congrArg List.length hdrop
              simp only [List.length_drop, List.length_cons] at this
              omega
          rw [ih hmore]
        · rfl

/-! ## Open parentheses -/

/-- What `tableRefsFrom` holds of open parentheses after some tokens. -/
def callsAfter (previous : Option Token)
    (calls : List Bool) : List Token → List Bool
  | [] => calls
  | t :: ts =>
    match t.kind with
    | .leftParen =>
      callsAfter (some t)
        (previous.any (·.isOneOf Keyword.withFromArgument) :: calls) ts
    | .rightParen => callsAfter (some t) calls.tail ts
    | _ => callsAfter (some t) calls ts

/-- The tables before a semicolon, and those behind it, which stand in the
parentheses that are open there. -/
theorem tableRefsFrom_append_stop (previous : Option Token) (calls : List Bool)
    (ts : List Token) :
    tableRefsFrom previous calls (ts ++ stop :: later)
      = tableRefsFrom previous calls ts
        ++ tableRefsFrom (some stop) (callsAfter previous calls ts) later := by
  induction ts generalizing previous calls with
  | nil => simp [tableRefsFrom, callsAfter, hstop, isKeyword_of_semicolon hstop]
  | cons t ts ih =>
    have hlist := fun commas =>
      readTableList_append_stop hstop later commas (Nat.zero_le ts.length)
    simp only [List.cons_append, tableRefsFrom, callsAfter, ih, hlist]
    cases t.kind <;> simp

end Stop

/-- Every opening parenthesis among the tokens is closed by one of them. -/
def ParensClose : List Token → Prop
  | [] => True
  | t :: ts =>
    (t.kind = .leftParen → (closingToken? 0 ts).isSome = true) ∧ ParensClose ts

instance ParensClose.decidable :
    (tokens : List Token) → Decidable (ParensClose tokens)
  | [] => isTrue trivial
  | t :: ts =>
    have := ParensClose.decidable ts
    inferInstanceAs (Decidable
      ((t.kind = .leftParen → (closingToken? 0 ts).isSome = true) ∧
        ParensClose ts))

/-- Tokens that close their parentheses leave none of them open, and of those
open before, none that they close. -/
theorem length_callsAfter {ts : List Token} (h : ParensClose ts)
    (previous : Option Token) (calls : List Bool) :
    (callsAfter previous calls ts).length ≤ calls.length ∧
      ∀ depth, (closingToken? depth ts).isSome = true →
        (callsAfter previous calls ts).length ≤ calls.length - (depth + 1) := by
  induction ts generalizing previous calls with
  | nil =>
    exact ⟨Nat.le_refl _,
      fun _ hsome => by simp [closingToken?, groupLength] at hsome⟩
  | cons t ts ih =>
    obtain ⟨hclosed, hrest⟩ := h
    rw [callsAfter]
    split
    · rename_i hleft
      obtain ⟨-, hdeeper⟩ :=
        ih hrest (some t)
          (previous.any (·.isOneOf Keyword.withFromArgument) :: calls)
      simp only [List.length_cons] at hdeeper
      refine ⟨by have := hdeeper 0 (hclosed hleft); omega, ?_⟩
      intro depth hsome
      rw [closingToken?_leftParen ts hleft] at hsome
      have := hdeeper (depth + 1) hsome
      omega
    · rename_i hright
      obtain ⟨hle, hdeeper⟩ := ih hrest (some t) calls.tail
      rw [List.length_tail] at hle hdeeper
      refine ⟨by omega, ?_⟩
      intro depth hsome
      by_cases hdepth : depth = 0
      · omega
      · rw [closingToken?_rightParen ts hright, if_neg hdepth] at hsome
        have := hdeeper (depth - 1) hsome
        omega
    · rename_i hleft hright
      obtain ⟨hle, hdeeper⟩ := ih hrest (some t) calls
      refine ⟨hle, ?_⟩
      intro depth hsome
      rw [closingToken?_other ts hleft hright] at hsome
      exact hdeeper depth hsome

theorem callsAfter_nil {ts : List Token} (h : ParensClose ts)
    (previous : Option Token) : callsAfter previous [] ts = [] :=
  List.eq_nil_of_length_eq_zero
    (Nat.le_zero.1 (length_callsAfter h previous []).1)

/-- Behind a semicolon tables are read as at the start. -/
theorem tableRefsFrom_behind {stop : Token} (hstop : stop.kind = .semicolon)
    (calls : List Bool) (ts : List Token) :
    tableRefsFrom (some stop) calls ts = tableRefsFrom none calls ts := by
  cases ts with
  | nil => rfl
  | cons t ts =>
    have hcall : stop.isOneOf Keyword.withFromArgument = false := by
      simp [Token.isOneOf, hstop]
    rw [tableRefsFrom, tableRefsFrom]
    simp [hcall]

/-- The tables that two texts name, divided by a semicolon. -/
theorem tableRefs_append_semicolon {ts : List Token} (h : ParensClose ts)
    (offset n : Nat) (later : List Token) :
    tableRefs (ts ++ Token.semicolonAt offset :: later.map (Token.shift n))
      = tableRefs ts ++ (tableRefs later).map (TableRef.shift n) := by
  rw [tableRefs, tableRefsFrom_append_stop rfl, callsAfter_nil h,
    tableRefsFrom_behind rfl, tableRefs, ← tableRefs, ← tableRefs,
    tableRefs_shift]

end QueryAssist
