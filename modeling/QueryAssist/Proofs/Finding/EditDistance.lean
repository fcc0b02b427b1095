import Mathlib.Data.List.Induction
import QueryAssist.Finding.Suggestion

/-!
# The edit distance and the nearest name

The distance of two names is computed row by row, one row for each character of
the first name. A row holds the distances of what was read so far to every
beginning of the second name, so the last cell of the last row is the distance
as the plain recursion on both names gives it. Two buffers that change places
hold all that is needed of the rows. The distance is the least number of
insertions, deletions and substitutions that lead from one name to the other.
Among the candidates within reach the first of the nearest is suggested.
-/

namespace QueryAssist

/-! ## Edits -/

/-- One character is inserted, deleted or replaced. -/
inductive Edit : List Char → List Char → Prop
  | insert (before after : List Char) (c : Char) :
      Edit (before ++ after) (before ++ c :: after)
  | delete (before after : List Char) (c : Char) :
      Edit (before ++ c :: after) (before ++ after)
  | substitute (before after : List Char) (c d : Char) :
      Edit (before ++ c :: after) (before ++ d :: after)

/-- So many edits lead from one text to another. -/
inductive Edits : Nat → List Char → List Char → Prop
  | none (a : List Char) : Edits 0 a a
  | more {n : Nat} {a b c : List Char} (first : Edit a b) (rest : Edits n b c) :
      Edits (n + 1) a c

theorem Edit.cons {a b : List Char} (h : Edit a b)
    (x : Char) : Edit (x :: a) (x :: b) := by
  cases h with
  | insert before after c => exact insert (x :: before) after c
  | delete before after c => exact delete (x :: before) after c
  | substitute before after c d => exact substitute (x :: before) after c d

theorem Edit.reverse {a b : List Char}
    (h : Edit a b) : Edit a.reverse b.reverse := by
  cases h with
  | insert before after c => simpa using insert after.reverse before.reverse c
  | delete before after c => simpa using delete after.reverse before.reverse c
  | substitute before after c d =>
    simpa using substitute after.reverse before.reverse c d

theorem Edits.cons {n : Nat} {a b : List Char} (h : Edits n a b)
    (x : Char) : Edits n (x :: a) (x :: b) := by
  induction h with
  | none a => exact none (x :: a)
  | more first rest ih => exact more (first.cons x) ih

theorem Edits.reverse {n : Nat} {a b : List Char} (h : Edits n a b) :
    Edits n a.reverse b.reverse := by
  induction h with
  | none a => exact none a.reverse
  | more first rest ih => exact more first.reverse ih

/-! ## The plain recursion -/

/-- The edit distance by recursion on both texts. -/
def plainDistance : List Char → List Char → Nat
  | [], b => b.length
  | x :: a, [] => (x :: a).length
  | x :: a, y :: b =>
    min (min (plainDistance a (y :: b) + 1) (plainDistance (x :: a) b + 1))
      (plainDistance a b + if x = y then 0 else 1)
termination_by a b => a.length + b.length
decreasing_by all_goals (simp only [List.length_cons]; omega)

section

variable (x y : Char) (a b : List Char)

@[simp]
theorem plainDistance_nil_left : plainDistance [] b = b.length := by
  rw [plainDistance]

@[simp]
theorem plainDistance_nil_right : plainDistance a [] = a.length := by
  cases a <;> rw [plainDistance]

theorem plainDistance_cons_cons :
    plainDistance (x :: a) (y :: b)
      = min (min (plainDistance a (y :: b) + 1) (plainDistance (x :: a) b + 1))
          (plainDistance a b + if x = y then 0 else 1) := by
  rw [plainDistance]

/-- The first characters are dealt with in one of three ways. -/
theorem plainDistance_cons_cases :
    plainDistance (x :: a) (y :: b) = plainDistance a (y :: b) + 1 ∨
      plainDistance (x :: a) (y :: b) = plainDistance (x :: a) b + 1 ∨
      plainDistance (x :: a) (y :: b)
        = plainDistance a b + if x = y then 0 else 1 := by
  rw [plainDistance_cons_cons]
  generalize (if x = y then 0 else 1) = cost
  omega

/-! ## One character more, one less, or another one -/

theorem plainDistance_cons_left_le :
    plainDistance (x :: a) b ≤ plainDistance a b + 1 := by
  cases b with
  | nil => simp
  | cons y b =>
    rw [plainDistance_cons_cons]
    omega

theorem plainDistance_cons_right_le :
    plainDistance a (y :: b) ≤ plainDistance a b + 1 := by
  cases a with
  | nil => simp
  | cons x a =>
    rw [plainDistance_cons_cons]
    omega

/-- Two different first characters are replaced or not at all. -/
theorem plainDistance_cons_cons_le :
    plainDistance (x :: a) (y :: b) ≤ plainDistance a b + 1 := by
  rw [plainDistance_cons_cons]
  split <;> omega

theorem plainDistance_le_cons_left :
    plainDistance a b ≤ plainDistance (x :: a) b + 1 := by
  induction b with
  | nil =>
    simp only [plainDistance_nil_right, List.length_cons]
    omega
  | cons y b ih =>
    have hright := plainDistance_cons_right_le y a b
    rcases plainDistance_cons_cases x y a b with h | h | h <;> omega

end

/-- Texts that differ by an edit behind their first characters are as far from
any text, up to one. -/
theorem plainDistance_cons_le {a a' : List Char}
    (h : ∀ b, plainDistance a b ≤ plainDistance a' b + 1) (x : Char)
    (b : List Char) :
    plainDistance (x :: a) b ≤ plainDistance (x :: a') b + 1 := by
  induction b with
  | nil => simpa using h []
  | cons y b ih =>
    have hskip := h (y :: b)
    have hkeep := h b
    rw [plainDistance_cons_cons]
    rcases plainDistance_cons_cases x y a' b with heq | heq | heq <;> rw [heq]
      <;> omega

theorem plainDistance_substitute_le (x x' : Char) (a b : List Char) :
    plainDistance (x :: a) b ≤ plainDistance (x' :: a) b + 1 := by
  induction b with
  | nil => simp
  | cons y b ih =>
    have hkeep := plainDistance_cons_cons_le x y a b
    rw [plainDistance_cons_cons] at hkeep ⊢
    rcases plainDistance_cons_cases x' y a b with heq | heq | heq <;> rw [heq]
      <;> omega

/-- One edit changes the distance to any text by one at most. -/
theorem plainDistance_edit_le {a a' : List Char} (h : Edit a a')
    (b : List Char) : plainDistance a b ≤ plainDistance a' b + 1 := by
  cases h with
  | insert before after c =>
    induction before generalizing b with
    | nil => exact plainDistance_le_cons_left c after b
    | cons x before ih => exact plainDistance_cons_le ih x b
  | delete before after c =>
    induction before generalizing b with
    | nil => exact plainDistance_cons_left_le c after b
    | cons x before ih => exact plainDistance_cons_le ih x b
  | substitute before after c d =>
    induction before generalizing b with
    | nil => exact plainDistance_substitute_le c d after b
    | cons x before ih => exact plainDistance_cons_le ih x b

/-! ## The least number of edits -/

theorem plainDistance_self (a : List Char) : plainDistance a a = 0 := by
  induction a with
  | nil => simp
  | cons x a ih =>
    rw [plainDistance_cons_cons, ih]
    simp

/-- No fewer edits than the distance lead from one text to another. -/
theorem Edits.plainDistance_le {n : Nat} {a b : List Char}
    (h : Edits n a b) : plainDistance a b ≤ n := by
  induction h with
  | none a => exact Nat.le_of_eq (plainDistance_self a)
  | @more n a b c first rest ih =>
    calc plainDistance a c ≤ plainDistance b c + 1 :=
      plainDistance_edit_le first c
      _ ≤ n + 1 := Nat.add_le_add_right ih 1

/-- As many edits as the distance are enough. -/
theorem edits_plainDistance (a b : List Char) :
    Edits (plainDistance a b) a b := by
  induction a, b using plainDistance.induct with
  | case1 b =>
    rw [plainDistance_nil_left]
    induction b with
    | nil => exact .none []
    | cons y b ih => exact .more (.insert [] [] y) (ih.cons y)
  | case2 x a =>
    rw [plainDistance_nil_right]
    generalize x :: a = a
    induction a with
    | nil => exact .none []
    | cons x a ih => exact .more (.delete [] a x) ih
  | case3 x a y b hdelete hinsert hkeep =>
    rcases plainDistance_cons_cases x y a b with heq | heq | heq
    · rw [heq]
      exact .more (.delete [] a x) hdelete
    · rw [heq]
      exact .more (.insert [] (x :: a) y) (hinsert.cons y)
    · rw [heq]
      by_cases hxy : x = y
      · rw [if_pos hxy, ← hxy]
        exact hkeep.cons x
      · rw [if_neg hxy]
        exact .more (.substitute [] a x y) (hkeep.cons y)

/-- The distance is the same when both texts are read backwards. -/
theorem plainDistance_reverse (a b : List Char) :
    plainDistance a.reverse b.reverse = plainDistance a b := by
  apply Nat.le_antisymm
  · exact (edits_plainDistance a b).reverse.plainDistance_le
  · have hback := (edits_plainDistance a.reverse b.reverse).reverse
    rw [List.reverse_reverse, List.reverse_reverse] at hback
    exact hback.plainDistance_le

/-! ## Rows -/

/-- Distances of `a` to the texts that `b` gives one by one in front of `read`:
both texts are read backwards, so these are the beginnings of a name. -/
def prefixDistances (a read : List Char) : List Char → List Nat
  | [] => []
  | y :: b => plainDistance a (y :: read) :: prefixDistances a (y :: read) b

theorem distanceCells_eq (x : Char) (a read b : List Char) :
    distanceCells x (plainDistance (x :: a) read) (plainDistance a read) b
        (prefixDistances a read b)
      = prefixDistances (x :: a) read b := by
  induction b generalizing read with
  | nil => rfl
  | cons y b ih =>
    rw [prefixDistances, distanceCells, prefixDistances,
      ← plainDistance_cons_cons, ih]

/-- The row of a text: its distances to all beginnings of a name. -/
def rowOf (a b : List Char) : List Nat :=
  plainDistance a [] :: prefixDistances a [] b

/-- One more character makes the next row of the last one. -/
theorem distanceRow_rowOf (x : Char) (a b : List Char) :
    distanceRow b (rowOf a b) x = rowOf (x :: a) b := by
  have hfirst : plainDistance a [] + 1 = plainDistance (x :: a) [] := by simp
  rw [rowOf, distanceRow, hfirst, distanceCells_eq, rowOf]

theorem foldl_distanceRow (a read b : List Char) :
    a.foldl (distanceRow b) (rowOf read b) = rowOf (a.reverse ++ read) b := by
  induction a generalizing read with
  | nil => rfl
  | cons x a ih =>
    rw [List.foldl_cons, distanceRow_rowOf, ih, List.reverse_cons,
      List.append_assoc]
    rfl

theorem prefixDistances_nil (read b : List Char) :
    prefixDistances [] read b = List.range' (read.length + 1) b.length := by
  induction b generalizing read with
  | nil => rfl
  | cons y b ih =>
    rw [prefixDistances, ih, plainDistance_nil_left, List.length_cons,
      List.length_cons, List.range'_succ]

/-- The first row counts up. -/
theorem rowOf_nil (b : List Char) : rowOf [] b = List.range (b.length + 1) := by
  rw [rowOf, prefixDistances_nil, List.range_eq_range', List.range'_succ,
    plainDistance_nil_left]
  rfl

/-- The last cell of a row is the distance to the whole name. -/
theorem getLast?_prefixDistances (a read b : List Char) :
    (plainDistance a read :: prefixDistances a read b).getLast?
      = some (plainDistance a (b.reverse ++ read)) := by
  induction b generalizing read with
  | nil => rfl
  | cons y b ih =>
    rw [prefixDistances, List.getLast?_cons_cons, ih, List.reverse_cons,
      List.append_assoc]
    rfl

/-- The rows compute the distance of the plain recursion. -/
theorem editDistance_eq (a b : List Char) :
    editDistance a b = plainDistance a b := by
  rw [editDistance, ← rowOf_nil, foldl_distanceRow, rowOf,
    getLast?_prefixDistances, Option.getD_some, List.append_nil,
    List.append_nil, plainDistance_reverse]

/-! ## Two buffers

Two rows of memory are enough. Each row is written over the row before the last,
cell by cell, and then the two change places. What still stands in a buffer from
an earlier row is written before it is read.
-/

/-- Writes a cell of a buffer, if there is such a cell. -/
def write? (buffer : List Nat) (i cell : Nat) : Option (List Nat) :=
  if i < buffer.length then some (buffer.set i cell) else none

/-- Writes the cells of `current` behind index `j`, each from the two cells of
`last` above it and from the cell before it. -/
def fillCells? (c : Char) (last : List Nat) :
    Nat → List Char → List Nat → Option (List Nat)
  | _, [], current => some current
  | j, d :: b, current => do
    let above ← last[j + 1]?
    let left ← current[j]?
    let diagonal ← last[j]?
    let cell :=
      min (min (above + 1) (left + 1)) (diagonal + if c = d then 0 else 1)
    let current ← write? current (j + 1) cell
    fillCells? c last (j + 1) b current

/-- The last row, for the characters of a name from index `i` on: `last` holds
the row before them, and `free` is written over. -/
def swapRows? (b : List Char) :
    Nat → List Char → List Nat → List Nat → Option (List Nat)
  | _, [], last, _ => some last
  | i, c :: a, last, free => do
    let current ← write? free 0 (i + 1)
    let current ← fillCells? c last 0 b current
    swapRows? b (i + 1) a current last

/-- The edit distance with two buffers, unless a cell is missing. -/
def bufferedDistance? (a b : List Char) : Option Nat := do
  let row ← swapRows? b 0 a (List.range (b.length + 1))
    (List.replicate (b.length + 1) 0)
  row[b.length]?

theorem write?_append (front after : List Nat) (old cell : Nat) :
    write? (front ++ old :: after) front.length cell
      = some (front ++ cell :: after) := by
  simp [write?]

/-- The cells are those of the row, whatever `stale` cells they are written
over. -/
theorem fillCells?_eq (c : Char) (front written : List Nat)
    (left diagonal : Nat) (b : List Char) (rest stale : List Nat)
    (hwritten : written.length = front.length) (hrest : rest.length = b.length)
    (hstale : stale.length = b.length) :
    fillCells? c (front ++ diagonal :: rest) front.length b
        (written ++ left :: stale)
      = some (written ++ left :: distanceCells c left diagonal b rest) := by
  induction b generalizing front written left diagonal rest stale with
  | nil =>
    obtain rfl := List.length_eq_zero_iff.1 hstale
    rfl
  | cons d b ih =>
    obtain ⟨above, rest, rfl⟩ := List.exists_cons_of_length_eq_add_one hrest
    obtain ⟨old, stale, rfl⟩ := List.exists_cons_of_length_eq_add_one hstale
    have habove : (front ++ diagonal :: above :: rest)[front.length + 1]?
        = some above := by
      simp
    have hleft : (written ++ left :: old :: stale)[front.length]?
        = some left := by
      simp [← hwritten]
    have hdiagonal : (front ++ diagonal :: above :: rest)[front.length]?
        = some diagonal := by
      simp
    have hwrite : ∀ cell,
        write? (written ++ left :: old :: stale) (front.length + 1) cell
          = some (written ++ left :: cell :: stale) := by
      intro cell
      simpa [hwritten] using write?_append (written ++ [left]) stale old cell
    simp only [fillCells?, habove, hleft, hdiagonal, hwrite,
      Option.bind_eq_bind, Option.bind_some, distanceCells]
    -- One cell further, the cell above is the diagonal one and the cell just
    -- written is to the left.
    generalize min (min (above + 1) (left + 1))
        (diagonal + if c = d then 0 else 1) = cell
    simpa using ih (front ++ [diagonal]) (written ++ [left]) cell above rest
      stale (by simpa using hwritten) (by simpa using hrest)
      (by simpa using hstale)

theorem length_distanceCells (c : Char) (left diagonal : Nat) (b : List Char)
    (row : List Nat) (hrow : row.length = b.length) :
    (distanceCells c left diagonal b row).length = b.length := by
  induction b generalizing left diagonal row with
  | nil => rfl
  | cons d b ih =>
    obtain ⟨above, row, rfl⟩ := List.exists_cons_of_length_eq_add_one hrow
    simpa [distanceCells] using ih _ above row (by simpa using hrow)

/-- The first cell of a row is the number of characters read, so it can be
written from their index. -/
theorem swapRows?_eq (a b : List Char) (i : Nat) (row free : List Nat)
    (hrow : row.length = b.length) (hfree : free.length = b.length + 1) :
    ∃ cells, cells.length = b.length ∧
      a.foldl (distanceRow b) (i :: row) = (i + a.length) :: cells ∧
      swapRows? b i a (i :: row) free = some ((i + a.length) :: cells) := by
  induction a generalizing i row free with
  | nil => exact ⟨row, hrow, rfl, rfl⟩
  | cons c a ih =>
    obtain ⟨old, stale, rfl⟩ := List.exists_cons_of_length_eq_add_one hfree
    have hstale : stale.length = b.length := by simpa using hfree
    have hcells := length_distanceCells c (i + 1) i b row hrow
    obtain ⟨cells, hlength, hfold, hswap⟩ :=
      ih (i + 1) (distanceCells c (i + 1) i b row) (i :: row) hcells
        (by simp [hrow])
    have hwrite : write? (old :: stale) 0 (i + 1) = some ((i + 1) :: stale) :=
      write?_append [] stale old (i + 1)
    have hfill : fillCells? c (i :: row) 0 b ((i + 1) :: stale)
        = some ((i + 1) :: distanceCells c (i + 1) i b row) :=
      fillCells?_eq c [] [] (i + 1) i b row stale rfl hrow hstale
    have hindex : i + (c :: a).length = i + 1 + a.length := by
      rw [List.length_cons]
      omega
    refine ⟨cells, hlength, ?_, ?_⟩
    · rw [hindex, ← hfold]
      rfl
    · rw [hindex, ← hswap]
      simp only [swapRows?, hwrite, hfill, Option.bind_eq_bind,
        Option.bind_some]

/-- Both buffers have every cell that is read or written, and the last row in
them ends in the distance. -/
theorem bufferedDistance?_eq (a b : List Char) :
    bufferedDistance? a b = some (editDistance a b) := by
  have hrange : List.range (b.length + 1) = 0 :: List.range' 1 b.length := by
    rw [List.range_eq_range', List.range'_succ]
  obtain ⟨cells, hlength, hfold, hswap⟩ :=
    swapRows?_eq a b 0 (List.range' 1 b.length)
      (List.replicate (b.length + 1) 0) (by simp) (by simp)
  have hlast : b.length < ((0 + a.length) :: cells).length := by simp [hlength]
  rw [bufferedDistance?, editDistance, hrange, hfold, hswap,
    Option.bind_eq_bind, Option.bind_some, List.getLast?_eq_getElem?,
    List.length_cons, hlength, Nat.add_sub_cancel,
    List.getElem?_eq_getElem hlast, Option.getD_some]

/-! ## The nearest candidate -/

/-- The distance of a name and a candidate, ignoring case. -/
def nameDistance (name candidate : String) : Nat :=
  plainDistance (Text.lower name).toList (Text.lower candidate).toList

/-- A candidate is within reach at distance one to three. -/
def InReach (name candidate : String) : Prop :=
  1 ≤ nameDistance name candidate ∧ nameDistance name candidate ≤ 3

instance (name candidate : String) : Decidable (InReach name candidate) :=
  inferInstanceAs (Decidable (_ ∧ _))

/-- A candidate within reach that is nearer than all others before it, and at
least as near as all others behind it. -/
def IsFirstNearest (name : String) (candidates : List String)
    (candidate : String) : Prop :=
  InReach name candidate ∧
    ∃ before after, candidates = before ++ candidate :: after ∧
      (∀ c ∈ before,
        InReach name c → nameDistance name candidate < nameDistance name c) ∧
      ∀ c ∈ after,
        InReach name c → nameDistance name candidate ≤ nameDistance name c

section

variable {name : String}

/-- A candidate takes over if it is within reach and nearer than the
best so far. -/
theorem nearer_eq (best : Option (Nat × String)) (candidate : String) :
    nearer (Text.lower name).toList best candidate
      = if InReach name candidate ∧
          best.all (fun b => nameDistance name candidate < b.1) then
          some (nameDistance name candidate, candidate)
        else best := by
  have hdistance : editDistance (Text.lower name).toList
        (Text.lower candidate).toList
      = nameDistance name candidate :=
    editDistance_eq _ _
  simp only [nearer, hdistance, InReach, Nat.one_le_iff_ne_zero, and_assoc]

namespace IsFirstNearest

variable {candidates : List String} {candidate : String}

theorem mem (h : IsFirstNearest name candidates candidate) :
    candidate ∈ candidates := by
  obtain ⟨-, before, after, rfl, -, -⟩ := h
  simp

/-- No candidate within reach is nearer. -/
theorem le (h : IsFirstNearest name candidates candidate) {c : String}
    (hc : c ∈ candidates) (hreach : InReach name c) :
    nameDistance name candidate ≤ nameDistance name c := by
  obtain ⟨-, before, after, rfl, hbefore, hafter⟩ := h
  rcases List.mem_append.1 hc with hmem | hmem
  · exact Nat.le_of_lt (hbefore c hmem hreach)
  · rcases List.mem_cons.1 hmem with rfl | hmem
    · exact Nat.le_refl _
    · exact hafter c hmem hreach

/-- Two candidates cannot both come first. -/
theorem unique {other : String} (h : IsFirstNearest name candidates candidate)
    (hother : IsFirstNearest name candidates other) : candidate = other := by
  have hle := h.le hother.mem hother.1
  have hge := hother.le h.mem h.1
  obtain ⟨hreach, before, after, rfl, hbefore, -⟩ := h
  obtain ⟨hreach', before', after', hsplit, hbefore', -⟩ := hother
  rcases List.append_eq_append_iff.1 hsplit
    with ⟨between, hbetween, hrest⟩ | ⟨between, hbetween, hrest⟩
  · cases between with
    | nil => exact (List.cons.inj hrest).1
    | cons first between =>
      -- the candidate stands before the other, which is nearer than all
      -- before it
      obtain rfl := (List.cons.inj hrest).1
      have := hbefore' candidate (by rw [hbetween]; simp) hreach
      omega
  · cases between with
    | nil => exact (List.cons.inj hrest).1.symm
    | cons first between =>
      obtain rfl := (List.cons.inj hrest).1
      have := hbefore other (by rw [hbetween]; simp) hreach'
      omega

/-- A candidate that comes first stays so if one more is no nearer. -/
theorem concat (h : IsFirstNearest name candidates candidate) {c : String}
    (hc : InReach name c → nameDistance name candidate ≤ nameDistance name c) :
    IsFirstNearest name (candidates ++ [c]) candidate := by
  obtain ⟨hreach, before, after, rfl, hbefore, hafter⟩ := h
  refine ⟨hreach, before, after ++ [c], by simp, hbefore, ?_⟩
  intro d hd
  rcases List.mem_append.1 hd with hmem | hmem
  · exact hafter d hmem
  · rw [List.mem_singleton.1 hmem]
    exact hc

end IsFirstNearest

/-- What the search knows about the candidates that it has seen. -/
def IsBest (name : String) (seen : List String) : Option (Nat × String) → Prop
  | none => ∀ c ∈ seen, ¬ InReach name c
  | some (least, candidate) =>
    least = nameDistance name candidate ∧ IsFirstNearest name seen candidate

theorem IsBest.nearer {seen : List String} {best : Option (Nat × String)}
    (h : IsBest name seen best) (candidate : String) :
    IsBest name (seen ++ [candidate])
      (nearer (Text.lower name).toList best candidate) := by
  rw [nearer_eq]
  cases best with
  | none =>
    split
    · rename_i htakes
      exact ⟨rfl, htakes.1, seen, [], rfl,
        fun c hc hreach => absurd hreach (h c hc), by simp⟩
    · rename_i hkeeps
      intro c hc
      rcases List.mem_append.1 hc with hmem | hmem
      · exact h c hmem
      · rw [List.mem_singleton.1 hmem]
        exact fun hreach => hkeeps ⟨hreach, rfl⟩
  | some found =>
    obtain ⟨least, leader⟩ := found
    obtain ⟨rfl, hfirst⟩ := h
    simp only [Option.all_some, decide_eq_true_eq]
    split
    · rename_i htakes
      refine ⟨rfl, htakes.1, seen, [], rfl, ?_, by simp⟩
      intro c hc hreach
      exact Nat.lt_of_lt_of_le htakes.2 (hfirst.le hc hreach)
    · rename_i hkeeps
      exact ⟨rfl,
        hfirst.concat fun hreach =>
          Nat.le_of_not_lt fun hlt => hkeeps ⟨hreach, hlt⟩⟩

theorem isBest_foldl (name : String) (candidates : List String) :
    IsBest name candidates
      (candidates.foldl (QueryAssist.nearer (Text.lower name).toList)
        none) := by
  induction candidates using List.reverseRecOn with
  | nil => simp [IsBest]
  | append_singleton seen candidate ih =>
    rw [List.foldl_append, List.foldl_cons, List.foldl_nil]
    exact ih.nearer candidate

theorem similarName_eq_none_iff {candidates : List String} :
    similarName name candidates = none ↔
      ∀ c ∈ candidates, ¬ InReach name c := by
  have hbestOf := isBest_foldl name candidates
  rw [similarName, Option.map_eq_none_iff]
  constructor
  · intro hnone
    rw [hnone] at hbestOf
    exact hbestOf
  · intro hfar
    cases hbest : candidates.foldl (nearer (Text.lower name).toList) none with
    | none => rfl
    | some found =>
      rw [hbest] at hbestOf
      exact absurd hbestOf.2.1 (hfar found.2 hbestOf.2.mem)

theorem similarName_eq_some_iff {candidates : List String}
    {candidate : String} :
    similarName name candidates = some candidate ↔
      IsFirstNearest name candidates candidate := by
  have hsound : ∀ {c}, similarName name candidates = some c →
      IsFirstNearest name candidates c := by
    intro c hsome
    have hbestOf := isBest_foldl name candidates
    obtain ⟨⟨least, found⟩, hbest, rfl⟩ := Option.map_eq_some_iff.1 hsome
    rw [hbest] at hbestOf
    exact hbestOf.2
  refine ⟨hsound, fun hfirst => ?_⟩
  cases hsimilar : similarName name candidates with
  | none =>
    exact absurd hfirst.1
      (similarName_eq_none_iff.1 hsimilar candidate hfirst.mem)
  | some c => rw [(hsound hsimilar).unique hfirst]

end

/-- The distance of two names is the least number of insertions, deletions and
substitutions of characters that lead from one to the other. It is the one that
recursion on both gives, and the one that is left in two buffers that change
places, neither of which lacks a cell. A name is suggested iff it is the first
of those candidates, at distance one to three in lower case, that are nearest;
none is suggested iff no candidate is at such a distance. -/
theorem suggestions_are_nearest :
    (∀ a b : List Char, editDistance a b = plainDistance a b ∧
        bufferedDistance? a b = some (editDistance a b) ∧
        Edits (editDistance a b) a b ∧
        ∀ n, Edits n a b → editDistance a b ≤ n) ∧
      ∀ (name : String) (candidates : List String),
        (∀ candidate, similarName name candidates = some candidate ↔
            InReach name candidate ∧
              ∃ before after, candidates = before ++ candidate :: after ∧
                (∀ c ∈ before, InReach name c →
                  nameDistance name candidate < nameDistance name c) ∧
                ∀ c ∈ after, InReach name c →
                  nameDistance name candidate ≤ nameDistance name c) ∧
          (similarName name candidates = none ↔
            ∀ c ∈ candidates, ¬ InReach name c) := by
  refine ⟨fun a b =>
      ⟨editDistance_eq a b, bufferedDistance?_eq a b, ?_, fun n h => ?_⟩,
    fun name candidates =>
      ⟨fun candidate => similarName_eq_some_iff, similarName_eq_none_iff⟩⟩
  · rw [editDistance_eq]
    exact edits_plainDistance a b
  · rw [editDistance_eq]
    exact h.plainDistance_le

/-- A candidate equal to the name is passed over, and of two at distance one the
first is suggested. -/
theorem suggestions_are_nearest_employes :
    Edits 3 "kitten".toList "sitting".toList ∧
      (∀ n, Edits n "kitten".toList "sitting".toList → 3 ≤ n) ∧
      similarName "employes" ["Employes", "DEPTS", "EMPLOYEES", "Employs"]
        = some "EMPLOYEES" ∧
      InReach "employes" "EMPLOYEES" ∧ ¬ InReach "employes" "DEPTS" ∧
      similarName "employes" ["Employes", "DEPTS"] = none := by
  obtain ⟨hdistance, hsuggested⟩ := suggestions_are_nearest
  have hkitten : editDistance "kitten".toList "sitting".toList = 3 := by
    decide +kernel
  have hsome : similarName "employes"
        ["Employes", "DEPTS", "EMPLOYEES", "Employs"]
      = some "EMPLOYEES" := by decide +kernel
  have hnone : similarName "employes" ["Employes", "DEPTS"] = none := by
    decide +kernel
  obtain ⟨-, -, henough, hleast⟩ := hdistance "kitten".toList "sitting".toList
  rw [hkitten] at henough hleast
  refine ⟨henough, hleast, hsome, (((hsuggested _ _).1 _).1 hsome).1, ?_, hnone⟩
  exact (hsuggested _ _).2.1 hnone "DEPTS" (by simp)

end QueryAssist
