import BillOfMaterials.Text.Alphanumeric

/-! # Package names

    A package's name also names its directory in the build tree, so it is
    short and holds no separators: letters, digits and the signs `-`, `_`, `.`
    and `+` only. -/

namespace BillOfMaterials

open Text

/-- Why a text is no package name. -/
inductive PackageName.Fault where
  | empty
  | tooLong (bytes : Nat)
  | invalidCharacters (text : String)
  deriving DecidableEq, Repr

namespace PackageName

/-- The largest length of a name in bytes. -/
def maxBytes : Nat := 255

/-- The characters of names. -/
def isNameChar (c : Char) : Bool :=
  isAlphanumeric c || c == '-' || c == '_' || c == '.' || c == '+'

/-- The first fault of a text as a package name. -/
def fault? (text : String) : Option Fault :=
  if text.isEmpty then some .empty
  else if maxBytes < text.utf8ByteSize then some (.tooLong text.utf8ByteSize)
  else if text.toList.all isNameChar then none
  else some (.invalidCharacters text)

theorem fault?_eq_none_iff {text : String} :
    fault? text = none ↔
      text ≠ "" ∧ text.utf8ByteSize ≤ maxBytes ∧ ∀ c ∈ text.toList, isNameChar c := by
  unfold fault?
  split
  · next hempty => simp [String.isEmpty_iff.1 hempty]
  · next hempty =>
    rw [String.isEmpty_iff] at hempty
    split
    · next hlong => simp [Nat.not_le.2 hlong]
    · next hlong => simp [hempty, Nat.not_lt.1 hlong]

def Fault.message : Fault → String
  | .empty => "Package name cannot be empty"
  | .tooLong bytes =>
    "Package name is too long (" ++ bytes.repr ++ " bytes). Maximum allowed: " ++ maxBytes.repr ++
      " bytes"
  | .invalidCharacters text =>
    "Package name '" ++ text ++ "' contains invalid characters. " ++
      "Only alphanumeric, hyphens, underscores, dots, and plus signs are allowed."

end PackageName

/-- A text without a fault as a package name. -/
structure PackageName where
  text : String
  faultless : PackageName.fault? text = none
  deriving DecidableEq

namespace PackageName

/-- Names of the same text are the same. -/
theorem text_inj {first second : PackageName} : first.text = second.text ↔ first = second := by
  constructor
  · cases first
    cases second
    rintro rfl
    rfl
  · rintro rfl
    rfl

theorem isNameChar_of_mem (name : PackageName) {c : Char} (h : c ∈ name.text.toList) :
    isNameChar c :=
  (fault?_eq_none_iff.1 name.faultless).2.2 c h

instance : Repr PackageName := ⟨fun name => reprPrec name.text⟩

/-- The name that a text is, or its first fault. -/
def ofText (text : String) : Except Fault PackageName :=
  match h : fault? text with
  | none => .ok ⟨text, h⟩
  | some fault => .error fault

end PackageName

end BillOfMaterials
