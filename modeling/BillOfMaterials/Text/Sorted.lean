/-! # Sorted sets of names

    A set of names is answered as a list without repetitions, ascending by
    code point.  `insertSorted` keeps such a list sorted; `sortedSet` builds
    one from names in any order. -/

namespace BillOfMaterials.Text

/-- Puts a name into an ascending list, unless it is there already. -/
def insertSorted (name : String) : List String → List String
  | [] => [name]
  | first :: rest =>
    if name < first then name :: first :: rest
    else if name = first then first :: rest
    else first :: insertSorted name rest

@[simp] theorem mem_insertSorted {x name : String} {names : List String} :
    x ∈ insertSorted name names ↔ x = name ∨ x ∈ names := by
  induction names with
  | nil => simp [insertSorted]
  | cons first rest ih =>
    by_cases lt : name < first
    · simp [insertSorted, lt]
    · by_cases eq : name = first
      · subst eq; simp [insertSorted]
      · simp [insertSorted, lt, eq, ih]; grind

/-- The distinct names among `names`, ascending by code point. -/
def sortedSet (names : List String) : List String :=
  names.foldr insertSorted []

@[simp] theorem mem_sortedSet {x : String} {names : List String} :
    x ∈ sortedSet names ↔ x ∈ names := by
  induction names with
  | nil => simp [sortedSet]
  | cons first rest ih =>
    rw [show sortedSet (first :: rest) = insertSorted first (sortedSet rest) from rfl]
    simp [ih]

end BillOfMaterials.Text
