import QueryAssist.Data.Basic

/-!
# Records in the order of their names
-/

namespace QueryAssist.Data

/-- Puts a field before the first one with a greater name. -/
def insertField (field : String × Data) :
    List (String × Data) → List (String × Data)
  | [] => [field]
  | other :: fields =>
    if field.1 ≤ other.1 then field :: other :: fields
    else other :: insertField field fields

mutual

/-- The same data with the fields of every record in the order of
their names. -/
def sorted : Data → Data
  | .list items => .list (sortedItems items)
  | .record fields => .record (sortedFields fields)
  | .null => .null
  | .bool b => .bool b
  | .number literal => .number literal
  | .moment literal => .moment literal
  | .string s => .string s

def sortedItems : List Data → List Data
  | [] => []
  | item :: items => sorted item :: sortedItems items

def sortedFields : List (String × Data) → List (String × Data)
  | [] => []
  | (name, value) :: fields =>
    insertField (name, sorted value) (sortedFields fields)

end

end QueryAssist.Data
