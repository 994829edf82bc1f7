/-! # Small letters

    Names of formats and algorithms are compared, and digests are kept, in
    small letters.  Only ASCII letters have a small form here. -/

namespace BillOfMaterials.Text

/-- A text with small letters in the place of capital ones. -/
def lowered (text : String) : String := String.ofList (text.toList.map Char.toLower)

@[simp] theorem toList_lowered (text : String) :
    (lowered text).toList = text.toList.map Char.toLower := by
  simp [lowered]

end BillOfMaterials.Text
