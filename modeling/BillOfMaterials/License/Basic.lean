import BillOfMaterials.Text.Blank
import BillOfMaterials.Text.Sorted

/-! # License expressions as trees

    A license expression names licenses and says which of them apply
    together.  As a tree it is a leaf or a set of parts, all of which apply
    or any one of which may be chosen.

    * `Polarity` tells the two kinds of set apart.
    * `License` is the tree; `License.join` combines two trees and splices an
      operand that already is a set of the same polarity.
    * `License.render` writes a tree: a set inside a set stands in parentheses.
    * `LeafParts` are the license, the or-later mark and the exception that a
      leaf's text names; `licenseIds` and `exceptionIds` collect them. -/

namespace BillOfMaterials

open Text

/-! ## Trees -/

/-- How the parts of a set combine. -/
inductive Polarity where
  /-- Every part applies. -/
  | all
  /-- Any one part may be chosen. -/
  | any
  deriving DecidableEq, Repr

/-- The operator that stands between the parts of a set. -/
def Polarity.operator : Polarity → String
  | .all => "AND"
  | .any => "OR"

/-- A license expression.  A leaf holds its text verbatim, with any or-later
    mark and any exception clause. -/
inductive License where
  | leaf (text : String)
  | set (polarity : Polarity) (parts : List License)
  deriving Repr

namespace License

mutual

/-- Equality of trees, part by part. -/
def same : License → License → Bool
  | .leaf a, .leaf b => a == b
  | .set p as, .set q bs => p == q && sameParts as bs
  | _, _ => false

/-- Equality of lists of trees. -/
def sameParts : List License → List License → Bool
  | [], [] => true
  | a :: as, b :: bs => same a b && sameParts as bs
  | _, _ => false

end

/-- A tree's own operator: none for a leaf. -/
def polarity? : License → Option Polarity
  | .leaf _ => none
  | .set p _ => some p

def isLeaf : License → Bool
  | .leaf _ => true
  | .set _ _ => false

/-- The parts of a set; a leaf has none. -/
def parts : License → List License
  | .leaf _ => []
  | .set _ parts => parts

/-! ## Joining -/

/-- What a tree contributes to a set of polarity `p`: its parts if it is such a
    set itself, else the tree as one part. -/
def operandsFor (p : Polarity) : License → List License
  | .leaf text => [.leaf text]
  | .set q parts => if q = p then parts else [.set q parts]

@[simp] theorem operandsFor_leaf (p : Polarity) (text : String) :
    operandsFor p (.leaf text) = [.leaf text] := rfl

@[simp] theorem operandsFor_self (p : Polarity) (parts : List License) :
    operandsFor p (.set p parts) = parts := by
  simp [operandsFor]

theorem operandsFor_ne {p q : Polarity} (h : q ≠ p) (parts : List License) :
    operandsFor p (.set q parts) = [.set q parts] := by
  simp [operandsFor, h]

/-- Combines two trees into a set of polarity `p`.  An operand that is such a
    set already gives its parts in its place, so that no set holds a set of its
    own polarity. -/
def join (p : Polarity) (left right : License) : License :=
  .set p (operandsFor p left ++ operandsFor p right)

/-! ## Writing -/

mutual

/-- The text of a tree.  A set inside a set stands in parentheses. -/
def render : License → String
  | .leaf text => text
  | .set p parts => renderParts p parts

/-- The text of a set's parts, with the set's operator between them. -/
def renderParts (p : Polarity) : List License → String
  | [] => ""
  | [part] => renderPart part
  | part :: next :: rest =>
    renderPart part ++ " " ++ p.operator ++ " " ++ renderParts p (next :: rest)

/-- The text of a tree as a part of a set. -/
def renderPart : License → String
  | .leaf text => text
  | .set p parts => "(" ++ renderParts p parts ++ ")"

end

@[simp] theorem render_leaf (text : String) : render (.leaf text) = text := by simp [render]

@[simp] theorem render_set (p : Polarity) (parts : List License) :
    render (.set p parts) = renderParts p parts := by simp [render]

/-! ## Leaves -/

mutual

/-- The texts of a tree's leaves from left to right. -/
def leaves : License → List String
  | .leaf text => [text]
  | .set _ parts => leavesOf parts

/-- The texts of the leaves of several trees. -/
def leavesOf : List License → List String
  | [] => []
  | part :: rest => leaves part ++ leavesOf rest

end

end License

/-! ## The parts of a leaf -/

/-- What stands between a license and its exception. -/
def withSeparator : String := " WITH "

/-- What a leaf's text names. -/
structure LeafParts where
  /-- The license without the or-later mark. -/
  id : String
  /-- Whether the license ends in the or-later mark `+`. -/
  orLater : Bool
  /-- The exception, if the text has one. -/
  exception? : Option String
  deriving DecidableEq, Repr

/-- The license without one trailing `+`, and whether there was one. -/
def stripOrLater (license : List Char) : List Char × Bool :=
  if license.getLast? = some '+' then (license.dropLast, true) else (license, false)

/-- Splits a leaf's text at its first `WITH`; the license before it may end in
    one or-later mark. -/
def LeafParts.ofText (text : String) : LeafParts :=
  let (license, exception?) := match cutAt withSeparator.toList text.toList with
    | some (license, exception) => (license, some (String.ofList exception))
    | none => (text.toList, none)
  let (id, orLater) := stripOrLater license
  { id := String.ofList id, orLater, exception? }

namespace License

/-- The licenses that a tree names, without or-later marks and exceptions. -/
def licenseIds (tree : License) : List String :=
  sortedSet (tree.leaves.map fun text => (LeafParts.ofText text).id)

/-- The exceptions that a tree names. -/
def exceptionIds (tree : License) : List String :=
  sortedSet (tree.leaves.filterMap fun text => (LeafParts.ofText text).exception?)

end License

end BillOfMaterials
