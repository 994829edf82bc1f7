import BillOfMaterials.License.Token

/-! # Reading a license expression

    `AND` binds tighter than `OR`, and both group from the left.  `WITH` makes
    no set: it glues the next identifier to the one before it.

    The reader keeps a stack of trees and a stack of operators that still wait
    for their right operand.  An operator first releases the waiting operators
    that bind at least as tightly; a closing parenthesis releases those back to
    the matching opening one.  In the end one tree must be left.

    * `Stacks` is that state and `Stacks.step` one word's effect on it.
    * `parse` reads a whole expression; it has no tree for a malformed one. -/

namespace BillOfMaterials.License

/-! ## The stacks -/

/-- An operator or an opening parenthesis that waits for what follows it. -/
inductive Waiting where
  | group
  | operator (polarity : Polarity)
  deriving DecidableEq, Repr

/-- The reader's state, each stack with its top first. -/
structure Stacks where
  trees : List License
  waiting : List Waiting

namespace Stacks

def empty : Stacks := { trees := [], waiting := [] }

/-- Joins the two topmost trees; the topmost is the right operand. -/
def joinTop (p : Polarity) : List License → Option (List License)
  | right :: left :: rest => some (join p left right :: rest)
  | _ => none

/-- Releases waiting operators as long as they bind at least as tightly as an
    operator of polarity `p`: every operator before an `OR`, only `AND` before
    an `AND`. -/
def releaseFor (p : Polarity) (trees : List License) : List Waiting → Option Stacks
  | .operator q :: waiting =>
    if q = .all ∨ p = .any then do releaseFor p (← joinTop q trees) waiting
    else some { trees, waiting := .operator q :: waiting }
  | waiting => some { trees, waiting }

/-- Releases the operators inside the innermost group and ends the group. -/
def releaseGroup (trees : List License) : List Waiting → Option Stacks
  | .operator q :: waiting => do releaseGroup (← joinTop q trees) waiting
  | .group :: waiting => some { trees, waiting }
  | [] => none

/-- Releases every operator at the end of the text, where no group may be open. -/
def releaseAll (trees : List License) : List Waiting → Option (List License)
  | .operator q :: waiting => do releaseAll (← joinTop q trees) waiting
  | .group :: _ => none
  | [] => some trees

/-- The effect of a word other than `WITH`. -/
def step (s : Stacks) : Token → Option Stacks
  | .identifier text => some { s with trees := .leaf text :: s.trees }
  | .openGroup => some { s with waiting := .group :: s.waiting }
  | .closeGroup => releaseGroup s.trees s.waiting
  | .operator p => do
    let released ← releaseFor p s.trees s.waiting
    some { released with waiting := .operator p :: released.waiting }
  | .exception => none

/-- Glues an exception to the leaf on top.  A set takes no exception. -/
def attach (exception : String) (s : Stacks) : Option Stacks :=
  match s.trees with
  | .leaf text :: rest => some { s with trees := .leaf (text ++ withSeparator ++ exception) :: rest }
  | _ => none

/-- Reads all words.  `WITH` and the identifier that must follow it are one step. -/
def run : List Token → Stacks → Option Stacks
  | [], s => some s
  | [.exception], _ => none
  | .exception :: .identifier text :: rest, s => do run rest (← s.attach text)
  | token :: rest, s => do run rest (← s.step token)

/-- The tree that is left when all words are read. -/
def finish (s : Stacks) : Option License := do
  match ← releaseAll s.trees s.waiting with
  | [tree] => some tree
  | _ => none

end Stacks

/-! ## Whole expressions -/

/-- The tree of a list of words. -/
def ofTokens (tokens : List Token) : Option License := do
  (← Stacks.run tokens .empty).finish

/-- The tree of an expression, or `none` for a malformed one. -/
def parse (expression : String) : Option License :=
  ofTokens (Token.scan expression.toList)

end BillOfMaterials.License
