import QueryAssist.Data.Basic

/-!
# Tables of a TOML document

How headers and dotted keys build up tables. A table may be filled once: under
its header, or by dotted keys of one other table. Tables that only lie on the
path to another may still get a header of their own.
-/

namespace QueryAssist.Data.Toml

/-- How a table came about. -/
inductive Origin where
  /-- By a header. -/
  | header
  /-- On the path of a header. -/
  | path
  /-- By a dotted key. -/
  | dottedKey
  deriving DecidableEq, Repr

inductive Node where
  | value (data : Data)
  | table (origin : Origin) (fields : List (String × Node))
  /-- The tables under one repeated header. -/
  | tables (items : List (List (String × Node)))
  deriving Repr

abbrev Fields := List (String × Node)

namespace Fields

def get? (fields : Fields) (key : String) : Option Node :=
  (fields.find? (·.1 == key)).map Prod.snd

/-- Puts a node under a key, in the place of the one that is there. -/
def put (key : String) (node : Node) : Fields → Fields
  | [] => [(key, node)]
  | (k, old) :: rest =>
    if k == key then (k, node) :: rest else (k, old) :: put key node rest

end Fields

/-- Who walks along a path. -/
inductive Walk where
  | header
  | dottedKey
  deriving DecidableEq, Repr

/-- The origin of a table that a walk has to create. -/
def Walk.origin : Walk → Origin
  | header => .path
  | dottedKey => .dottedKey

/-- The fields with a change at the end of a path. The change is told the origin
of the table that it is made in. Of a list of tables the last one counts. A
dotted key may not walk into a table that has a header. -/
def descend (walk : Walk) (change : Origin → Fields → Option Fields)
    (origin : Origin) : List String → Fields → Option Fields
  | [], fields => change origin fields
  | key :: path, fields =>
    match fields.get? key with
    | none => do
      let inner ← descend walk change walk.origin path []
      return fields.put key (.table walk.origin inner)
    | some (.value _) => none
    | some (.table origin inner) =>
      if walk = .dottedKey ∧ origin = .header then none
      else do
        let inner ← descend walk change origin path inner
        return fields.put key (.table origin inner)
    | some (.tables items) => do
      let last ← items.getLast?
      let inner ← descend walk change .header path last
      return fields.put key (.tables (items.dropLast ++ [inner]))

/-- A key and its value; the key is a path and a last name. -/
structure Pair where
  path : List String
  key : String
  value : Data

/-- The fields with one more value. A key may come only once, and a dotted key
only reaches tables that dotted keys have made. -/
def addPair (fields : Fields) (pair : Pair) : Option Fields :=
  let change (origin : Origin) (fields : Fields) : Option Fields :=
    if (origin == .dottedKey) == pair.path.isEmpty
      || (fields.get? pair.key).isSome then none
    else some (fields.put pair.key (.value pair.value))
  descend .dottedKey change .header pair.path fields

def addPairs (fields : Fields) (pairs : List Pair) : Option Fields :=
  pairs.foldlM addPair fields

/-- A header with the values under it. -/
structure Block where
  /-- Whether the header starts one more table of a list. -/
  repeated : Bool
  path : List String
  key : String
  pairs : List Pair

/-- The fields with one more block. -/
def addBlock (fields : Fields) (block : Block) : Option Fields :=
  let change (_ : Origin) (parent : Fields) : Option Fields :=
    match block.repeated, parent.get? block.key with
    | true, none => do
      return parent.put block.key (.tables [← addPairs [] block.pairs])
    | true, some (.tables items) => do
      return parent.put block.key
        (.tables (items ++ [← addPairs [] block.pairs]))
    | false, none => do
      return parent.put block.key (.table .header (← addPairs [] block.pairs))
    | false, some (.table .path inner) => do
      return parent.put block.key
        (.table .header (← addPairs inner block.pairs))
    | _, _ => none
  descend .header change .header block.path fields

/-! ## The data -/

mutual

def Node.toData : Node → Data
  | .value data => data
  | .table _ fields => .record (fieldsData fields)
  | .tables items => .list (itemsData items)

def fieldsData : List (String × Node) → List (String × Data)
  | [] => []
  | (key, node) :: rest => (key, node.toData) :: fieldsData rest

def itemsData : List (List (String × Node)) → List Data
  | [] => []
  | fields :: rest => .record (fieldsData fields) :: itemsData rest

end

end QueryAssist.Data.Toml
