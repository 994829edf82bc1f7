import BillOfMaterials.License.Basic

/-! # Words of a license expression

    A parenthesis is a word of its own wherever it stands; all other words are
    separated by blanks.  The operators are written in capitals or in small
    letters throughout, and every other word is an identifier. -/

namespace BillOfMaterials.License

open Text

/-- A word of a license expression. -/
inductive Token where
  | openGroup
  | closeGroup
  /-- `AND` or `OR`. -/
  | operator (polarity : Polarity)
  /-- `WITH`, which attaches an exception to the identifier before it. -/
  | exception
  | identifier (text : String)
  deriving DecidableEq, Repr

/-- What a single word is. -/
def Token.ofWord (word : List Char) : Token :=
  match String.ofList word with
  | "(" => .openGroup
  | ")" => .closeGroup
  | "AND" | "and" => .operator .all
  | "OR" | "or" => .operator .any
  | "WITH" | "with" => .exception
  | text => .identifier text

/-- Blanks around a parenthesis make it a word of its own. -/
def spaceOut (c : Char) : List Char :=
  if c = '(' || c = ')' then [' ', c, ' '] else [c]

/-- The words of an expression, in order. -/
def Token.scan (expression : List Char) : List Token :=
  (words (expression.flatMap spaceOut)).map Token.ofWord

end BillOfMaterials.License
