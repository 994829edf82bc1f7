/-! # Blanks, pieces and words

    Every part of the library that reads words from text agrees on what
    separates them: the characters with the Unicode property `White_Space`.

    * `isBlank` is that property.
    * `pieces` cuts a text at each separator and keeps empty pieces.
    * `words` are the maximal blank-free pieces.
    * `trim` drops blanks at both ends. -/

namespace BillOfMaterials.Text

/-! ## The class -/

/-- The Unicode property `White_Space`. -/
def isBlank (c : Char) : Bool :=
  let n := c.toNat
  (9 ≤ n && n ≤ 13) || n == 0x20 || n == 0x85 || n == 0xA0 || n == 0x1680 ||
    (0x2000 ≤ n && n ≤ 0x200A) || n == 0x2028 || n == 0x2029 || n == 0x202F ||
    n == 0x205F || n == 0x3000

/-- Nothing but blanks, the empty text included. -/
def isAllBlank (s : List Char) : Bool := s.all isBlank

/-! ## Cutting -/

/-- The pieces of a text between separators, empty ones included: there is one
    piece more than there are separators. -/
def pieces (sep : Char → Bool) : List Char → List (List Char)
  | [] => [[]]
  | c :: rest =>
    if sep c then [] :: pieces sep rest else (pieces sep rest).modifyHead (c :: ·)

@[simp] theorem pieces_nil (sep : Char → Bool) : pieces sep [] = [[]] := rfl

theorem pieces_cons_of_sep {sep : Char → Bool} {c : Char} (h : sep c = true) (s : List Char) :
    pieces sep (c :: s) = [] :: pieces sep s := by
  simp [pieces, h]

theorem pieces_cons_of_not_sep {sep : Char → Bool} {c : Char} (h : sep c = false)
    (s : List Char) : pieces sep (c :: s) = (pieces sep s).modifyHead (c :: ·) := by
  simp [pieces, h]

theorem pieces_ne_nil (sep : Char → Bool) (s : List Char) : pieces sep s ≠ [] := by
  induction s with
  | nil => simp
  | cons c s ih =>
    by_cases h : sep c = true
    · simp [pieces, h]
    · cases hp : pieces sep s with
      | nil => exact absurd hp ih
      | cons p ps => simp [pieces, h, hp]

/-- The words of a text: its maximal non-empty runs without a blank. -/
def words (s : List Char) : List (List Char) :=
  (pieces isBlank s).filter (!·.isEmpty)

/-- The text without the blanks at its two ends. -/
def trim (s : List Char) : List Char :=
  ((s.dropWhile isBlank).reverse.dropWhile isBlank).reverse

/-! ## Searching -/

/-- The text before and after the first occurrence of `mark`, if it occurs. -/
def cutAt (mark : List Char) : List Char → Option (List Char × List Char)
  | [] => if mark.isEmpty then some ([], []) else none
  | c :: rest =>
    if mark.isPrefixOf (c :: rest) then some ([], (c :: rest).drop mark.length)
    else (cutAt mark rest).map fun (before, after) => (c :: before, after)

end BillOfMaterials.Text
