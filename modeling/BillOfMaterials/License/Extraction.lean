import BillOfMaterials.License.Basic

/-! # Scanning an expression for identifiers

    Extraction builds no tree.  It takes whatever stands between two operators
    as one identifier, so a name of several words is an identifier too, and
    parentheses count as blanks.

    * An operator counts only after a blank; it may begin a longer word.
    * `Extraction.scan` cuts a text at its operators.
    * `extract` collects licenses and exceptions, and tells whether every
      operator is followed by an operand. -/

namespace BillOfMaterials.License

open Text

/-! ## Cutting at operators -/

/-- The operator words. -/
def operatorWords : List String := ["and", "or", "with", "AND", "OR", "WITH"]

/-- The operator word that a text begins with, and the rest after it. -/
def operatorAt (s : List Char) : Option (String × List Char) :=
  operatorWords.findSome? fun word =>
    if word.toList.isPrefixOf s then some (word, s.drop word.length) else none

theorem length_lt_of_operatorAt {s rest : List Char} {word : String}
    (h : operatorAt s = some (word, rest)) : rest.length < s.length := by
  obtain ⟨w, hw, eq⟩ := List.exists_of_findSome?_eq_some h
  split at eq
  · rename_i begins
    simp only [Option.some.injEq, Prod.mk.injEq] at eq
    obtain ⟨rfl, rfl⟩ := eq
    have within := (List.isPrefixOf_iff_prefix.1 begins).length_le
    have positive : 0 < w.length := by
      simp only [operatorWords, List.mem_cons, List.not_mem_nil, or_false] at hw
      rcases hw with rfl | rfl | rfl | rfl | rfl | rfl <;> decide
    simp only [String.length_toList] at within
    simp only [List.length_drop]
    omega
  · exact absurd eq (by simp)

/-- Cuts a text at every operator that follows a blank.  Texts and operators
    alternate; `before` is the text read since the last operator, newest
    character first. -/
def cutAtOperators (before : List Char) : List Char → List String
  | [] => [String.ofList before.reverse]
  | c :: rest =>
    if isBlank c then
      match _found : operatorAt (rest.dropWhile isBlank) with
      | some (word, after) => String.ofList before.reverse :: word :: cutAtOperators [] after
      | none => cutAtOperators (c :: before) rest
    else cutAtOperators (c :: before) rest
  termination_by s => s.length
  decreasing_by
    · have shorter := length_lt_of_operatorAt _found
      have := (List.dropWhile_sublist isBlank (l := rest)).length_le
      simp only [List.length_cons]
      omega
    · simp
    · simp

/-- A parenthesis counts as a blank. -/
def blankGroups (expression : List Char) : List Char :=
  expression.map fun c => if c = '(' || c = ')' then ' ' else c

/-- The operators of an expression and the texts between them, trimmed, without
    those that are blank. -/
def operands (expression : String) : List String :=
  (cutAtOperators [] (blankGroups expression.toList)).filterMap fun text =>
    let trimmed := trim text.toList
    if trimmed.isEmpty then none else some (String.ofList trimmed)

/-! ## Collecting -/

/-- What an expression names. -/
structure Extraction where
  /-- Whether every operator has an operand after it. -/
  valid : Bool
  licenses : List String
  exceptions : List String
  deriving DecidableEq, Repr

namespace Extraction

/-- What the next text is wanted for. -/
inductive Wanted where
  /-- Nothing: no operator precedes it. -/
  | nothing
  | license
  | exception
  deriving DecidableEq, Repr

/-- What an operator word wants after it. -/
def Wanted.after (word : String) : Wanted :=
  if word = "with" ∨ word = "WITH" then .exception else .license

/-- Reads operators and texts, with `wanted` for the next text. -/
def collect (wanted : Wanted) : List String → Extraction
  | [] => { valid := wanted = .nothing, licenses := [], exceptions := [] }
  | text :: rest =>
    if text ∈ operatorWords then
      let found := collect (.after text) rest
      { found with valid := wanted = .nothing && found.valid }
    else
      let found := collect .nothing rest
      if wanted = .exception then
        { found with exceptions := insertSorted text found.exceptions }
      else
        let license := String.ofList (stripOrLater text.toList).1
        { found with licenses := insertSorted license found.licenses }

end Extraction

/-- The licenses and exceptions that an expression names. -/
def extract (expression : String) : Extraction :=
  Extraction.collect .nothing (operands expression)

end BillOfMaterials.License
