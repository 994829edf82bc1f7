import BillOfMaterials.License.Parser

/-! # License lists

    A package may declare its licenses as one expression or as a collection of
    them.  A list offers a choice of its elements and a tuple applies all of
    them.  Either is flattened into one expression in which every element has
    its own parentheses, and that expression is read. -/

namespace BillOfMaterials

open Text

/-- A license declaration. -/
inductive LicenseInput where
  | expression (text : String)
  /-- The elements combine with the operator of this polarity. -/
  | combined (polarity : Polarity) (elements : List LicenseInput)
  deriving Repr

namespace LicenseInput

/-- The choice among several expressions, as a package's license list. -/
def anyOf (texts : List String) : LicenseInput :=
  .combined .any (texts.map .expression)

mutual

/-- The flattened text.  Each collection stands in parentheses. -/
def flatten : LicenseInput → String
  | .expression text => text
  | .combined p elements => "(" ++ flattenElements p elements ++ ")"

/-- The elements of a collection, each in parentheses, with the operator
    between them. -/
def flattenElements (p : Polarity) : List LicenseInput → String
  | [] => ""
  | [element] => "(" ++ flatten element ++ ")"
  | element :: next :: rest =>
    "(" ++ flatten element ++ ") " ++ p.operator ++ " " ++ flattenElements p (next :: rest)

end

/-- The expression to read: none for a blank text or an empty collection.  A
    blank element further in keeps its place as `()`, which has no tree. -/
def toExpression : LicenseInput → Option String
  | .expression text => if isAllBlank text.toList then none else some text
  | .combined _ [] => none
  | .combined p elements => some (flatten (.combined p elements))

/-- The tree of a declaration. -/
def parse (input : LicenseInput) : Option License := do
  License.parse (← input.toExpression)

end LicenseInput

end BillOfMaterials
