import QueryAssist.Data.Basic

/-!
# Writing JSON

One line without blanks, or one item a line, indented by two blanks a level.
Characters outside ASCII are written as they are.
-/

namespace QueryAssist.Data.Json

/-- A character inside a string. -/
def escape (c : Char) : List Char :=
  match c with
  | '"' => ['\\', '"']
  | '\\' => ['\\', '\\']
  | '\x08' => ['\\', 'b']
  | '\x0c' => ['\\', 'f']
  | '\n' => ['\\', 'n']
  | '\r' => ['\\', 'r']
  | '\t' => ['\\', 't']
  | c =>
    if c < ' ' then
      ['\\', 'u', '0', '0', Nat.digitChar (c.toNat / 16),
        Nat.digitChar (c.toNat % 16)]
    else [c]

def quote (s : String) : String :=
  "\"" ++ String.ofList (s.toList.flatMap escape) ++ "\""

mutual

/-- The value on one line. -/
def compact : Data → String
  | .null => "null"
  | .bool true => "true"
  | .bool false => "false"
  | .number literal => literal
  | .moment literal => quote literal
  | .string s => quote s
  | .list items => "[" ++ compactItems items ++ "]"
  | .record fields => "\x7b" ++ compactFields fields ++ "\x7d"

def compactItems : List Data → String
  | [] => ""
  | [item] => compact item
  | item :: items => compact item ++ "," ++ compactItems items

def compactFields : List (String × Data) → String
  | [] => ""
  | [(name, value)] => quote name ++ ":" ++ compact value
  | (name, value) :: fields =>
    quote name ++ ":" ++ compact value ++ "," ++ compactFields fields

end

/-- A new line at a level. -/
def newline (level : Nat) : String :=
  "\n" ++ String.ofList (List.replicate (2 * level) ' ')

mutual

/-- The value with one item a line, where its first line stands at `level`. -/
def pretty (level : Nat) : Data → String
  | .null => "null"
  | .bool true => "true"
  | .bool false => "false"
  | .number literal => literal
  | .moment literal => quote literal
  | .string s => quote s
  | .list [] => "[]"
  | .list items => "[" ++ prettyItems (level + 1) items ++ newline level ++ "]"
  | .record [] => "\x7b\x7d"
  | .record fields =>
    "\x7b" ++ prettyFields (level + 1) fields ++ newline level ++ "\x7d"

def prettyItems (level : Nat) : List Data → String
  | [] => ""
  | [item] => newline level ++ pretty level item
  | item :: items =>
    newline level ++ pretty level item ++ "," ++ prettyItems level items

def prettyFields (level : Nat) : List (String × Data) → String
  | [] => ""
  | [(name, value)] => newline level ++ quote name ++ ": " ++ pretty level value
  | (name, value) :: fields =>
    newline level ++ quote name ++ ": " ++ pretty level value ++ ","
      ++ prettyFields level fields

end

end QueryAssist.Data.Json
