/-!
# Trees of data

What a text in a data format stands for, whichever the format.
-/

namespace QueryAssist

inductive Data where
  | null
  | bool (value : Bool)
  /-- A number, as written. -/
  | number (literal : String)
  /-- A date, a time or both, as written. -/
  | moment (literal : String)
  | string (value : String)
  | list (items : List Data)
  /-- Fields in the order in which they are written. A name may come twice. -/
  | record (fields : List (String × Data))
  deriving Repr, Inhabited

namespace Data

/-- A natural number. -/
def ofNat (n : Nat) : Data := .number (toString n)

def ofOption (encode : α → Data) : Option α → Data
  | some a => encode a
  | none => .null

/-- The field of this name, unless there is no value for it. -/
def field? (name : String) (encode : α → Data)
    (value : Option α) : List (String × Data) :=
  match value with
  | some a => [(name, encode a)]
  | none => []

/-- The first field of this name. -/
def get? (name : String) : Data → Option Data
  | .record fields => (fields.find? (·.1 == name)).map Prod.snd
  | _ => none

end Data

end QueryAssist
