import QueryAssist.Text.Casing

/-!
# Similar names

The edit distance of two names, and the candidate that is nearest to a
misspelt name.
-/

namespace QueryAssist

/-- The rest of a row of the distance table for the character `c`, from the cell
to the left and the cell above it to the left on. -/
def distanceCells (c : Char) (left diagonal : Nat) :
    List Char → List Nat → List Nat
  | b :: bs, above :: row =>
    let cell :=
      min (min (above + 1) (left + 1)) (diagonal + if c = b then 0 else 1)
    cell :: distanceCells c cell above bs row
  | _, _ => []

/-- The row for one more character `c`, from the row before it. -/
def distanceRow (b : List Char) (row : List Nat) (c : Char) : List Nat :=
  match row with
  | [] => []
  | first :: rest => (first + 1) :: distanceCells c (first + 1) first b rest

/-- Number of insertions, deletions and substitutions that lead from
`a` to `b`. -/
def editDistance (a b : List Char) : Nat :=
  ((a.foldl (distanceRow b) (List.range (b.length + 1))).getLast?).getD 0

/-- The better of the best candidate so far and one more: a candidate counts at
distance one to three, and wins if it is strictly nearer. -/
def nearer (name : List Char) (best : Option (Nat × String))
    (candidate : String) : Option (Nat × String) :=
  let distance := editDistance name (Text.lower candidate).toList
  if distance ≠ 0 ∧ distance ≤ 3 ∧
    best.all (fun (least, _) => distance < least) then
    some (distance, candidate)
  else best

/-- The first of the nearest candidates within distance three, ignoring case;
one equal to the name does not count. -/
def similarName (name : String) (candidates : List String) : Option String :=
  (candidates.foldl (nearer (Text.lower name).toList) none).map Prod.snd

end QueryAssist
