import BillOfMaterials.Text.Sorted
import BillOfMaterials.Yaml.Node
import BillOfMaterials.Yaml.Number

/-! # Values of nodes

    A plain scalar may be read as no value, a truth value or a number; any other
    is a text.

    * `isNull` and `bool?` are two of these readings.
    * `Node.valueKey?` writes the value of a node, so that two nodes have the
      same value exactly if they have the same key.  A node has no value if its
      tag is one of a program's own, or if a mapping inside it has two entries
      for one key. -/

namespace BillOfMaterials.Yaml

open Text

/-! ## Plain scalars -/

def isNull (text : String) : Bool := ["null", "Null", "NULL", "~"].contains text

def bool? (text : String) : Option Bool :=
  if ["true", "True", "TRUE"].contains text then some true
  else if ["false", "False", "FALSE"].contains text then some false
  else none

/-! ## Keys of scalars -/

/-- The whole numbers that a value may be. -/
def isInRange (n : Int) : Bool := -Int.pow 2 63 ≤ n && n < Int.pow 2 64

/-- Numbers beyond this range are read as numbers with a fraction. -/
def isWide (n : Int) : Bool := -Int.pow 2 127 ≤ n && n < Int.pow 2 128

/-- The key of a whole number; it must be in range. -/
def intKey? (n : Int) : Option String := if isInRange n then some ("int " ++ toString n) else none

def textKey (text : String) : String := "text " ++ text.length.repr ++ " " ++ text

/-- The key of a plain scalar without a tag. -/
def plainKey? (text : String) : Option String :=
  if text.isEmpty || isNull text then some "null"
  else
    match bool? text with
    | some value => some ("bool " ++ toString value)
    | none =>
      match (intOfText? text.toList).filter isWide with
      | some n => intKey? n
      | none =>
        if isPadded (splitSign text.toList).2 then some (textKey text)
        else
          match floatKey? text with
          | some key => some ("float " ++ key)
          | none => some (textKey text)

/-- The key of a scalar.  A text with the tag of another kind must be readable
    as one. -/
def scalarKey? (tag? : Option Tag) (plain : Bool) (text : String) : Option String :=
  match tag? with
  | some .null => if isNull text then some "null" else none
  | some .boolean => (bool? text).map fun value => "bool " ++ toString value
  | some .integer => do intKey? (← intOfText? text.toList)
  | some .float => (floatKey? text).map ("float " ++ ·)
  | some .own => none
  | some .other => some (textKey text)
  | some .nameless | none => if plain then plainKey? text else some (textKey text)

/-! ## Keys of nodes -/

/-- Texts in brackets, each with its length. -/
def bracketed (texts : List String) : String :=
  "[" ++ String.join (texts.map textKey) ++ "]"

mutual

/-- The key of a node's value, if it has one. -/
def Node.valueKey? : Node → Option String
  | .scalar tag? plain text => scalarKey? tag? plain text
  | .sequence tag? items =>
    if tag? = some .own then none else do return "list " ++ bracketed (← itemKeys? items)
  | .mapping tag? entries =>
    if tag? = some .own then none
    else do
      let keys ← entryKeys? entries
      if (keys.map (·.1)).Nodup then
        return "map " ++ bracketed (sortedSet (keys.map fun (key, value) => bracketed [key, value]))
      else none

def itemKeys? : List Node → Option (List String)
  | [] => some []
  | item :: rest => do return (← Node.valueKey? item) :: (← itemKeys? rest)

def entryKeys? : List (Node × Node) → Option (List (String × String))
  | [] => some []
  | (key, value) :: rest => do
    return (← Node.valueKey? key, ← Node.valueKey? value) :: (← entryKeys? rest)

end

end BillOfMaterials.Yaml
