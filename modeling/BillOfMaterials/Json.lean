import BillOfMaterials.Text.Hexadecimal

/-! # JSON text

    * `Json` are the values that reports hold: no report holds a number.
    * `Json.compact` writes a value without any space.
    * `Json.pretty` writes each member and each item on a line of its own. -/

namespace BillOfMaterials

open Text

/-- A JSON value.  The members of an object keep their order. -/
inductive Json where
  | null
  | bool (value : Bool)
  | text (value : String)
  | list (items : List Json)
  | object (members : List (String × Json))

namespace Json

/-! ## Texts -/

/-- What stands for a character in a quoted text: quotes, backslashes and
    control characters are escaped. -/
def escapeChar (c : Char) : List Char :=
  match c with
  | '"' => ['\\', '"']
  | '\\' => ['\\', '\\']
  | '\x08' => ['\\', 'b']
  | '\t' => ['\\', 't']
  | '\n' => ['\\', 'n']
  | '\x0c' => ['\\', 'f']
  | '\r' => ['\\', 'r']
  | c =>
    if c.toNat < 0x20 then ['\\', 'u', '0', '0', hexDigit (c.toNat / 16), hexDigit (c.toNat % 16)]
    else [c]

def quote (text : String) : String :=
  "\"" ++ String.ofList (text.toList.flatMap escapeChar) ++ "\""

/-! ## Without space -/

def boolText (value : Bool) : String := if value then "true" else "false"

mutual

def compact : Json → String
  | .null => "null"
  | .bool value => boolText value
  | .text value => quote value
  | .list items => "[" ++ compactItems items ++ "]"
  | .object members => "\x7b" ++ compactMembers members ++ "\x7d"

def compactItems : List Json → String
  | [] => ""
  | [item] => compact item
  | item :: next :: rest => compact item ++ "," ++ compactItems (next :: rest)

def compactMembers : List (String × Json) → String
  | [] => ""
  | [(name, value)] => quote name ++ ":" ++ compact value
  | (name, value) :: next :: rest =>
    quote name ++ ":" ++ compact value ++ "," ++ compactMembers (next :: rest)

end

/-! ## In lines -/

/-- The start of a line at a depth: two spaces for each level. -/
def newLine (depth : Nat) : String := "\n" ++ String.ofList (List.replicate (2 * depth) ' ')

mutual

/-- The text of a value whose first line begins at a depth. -/
def pretty (depth : Nat) : Json → String
  | .null => "null"
  | .bool value => boolText value
  | .text value => quote value
  | .list [] => "[]"
  | .list items => "[" ++ prettyItems (depth + 1) items ++ newLine depth ++ "]"
  | .object [] => "\x7b\x7d"
  | .object members => "\x7b" ++ prettyMembers (depth + 1) members ++ newLine depth ++ "\x7d"

def prettyItems (depth : Nat) : List Json → String
  | [] => ""
  | [item] => newLine depth ++ pretty depth item
  | item :: next :: rest =>
    newLine depth ++ pretty depth item ++ "," ++ prettyItems depth (next :: rest)

def prettyMembers (depth : Nat) : List (String × Json) → String
  | [] => ""
  | [(name, value)] => newLine depth ++ quote name ++ ": " ++ pretty depth value
  | (name, value) :: next :: rest =>
    newLine depth ++ quote name ++ ": " ++ pretty depth value ++ "," ++
      prettyMembers depth (next :: rest)

end

end Json

end BillOfMaterials
