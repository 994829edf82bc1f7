/-! # Lines of markup

    * `escape` makes a text harmless as content or as a quoted attribute.
    * `line` writes one line with two spaces for each level of depth. -/

namespace BillOfMaterials.Markup

/-- What stands for a character in markup: an entity for each that has a
    meaning there, else the character. -/
def escapeChar (c : Char) : List Char :=
  match c with
  | '&' => ['&', 'a', 'm', 'p', ';']
  | '<' => ['&', 'l', 't', ';']
  | '>' => ['&', 'g', 't', ';']
  | '"' => ['&', 'q', 'u', 'o', 't', ';']
  | '\'' => ['&', '#', '3', '9', ';']
  | c => [c]

/-- A text as content or as a quoted attribute value. -/
def escape (text : String) : String :=
  String.ofList (text.toList.flatMap escapeChar)

@[simp] theorem toList_escape (text : String) :
    (escape text).toList = text.toList.flatMap escapeChar := by
  simp [escape]

/-- Two spaces for each level. -/
def indent (depth : Nat) : String := String.ofList (List.replicate (2 * depth) ' ')

/-- One line at a depth; its text is written as it is. -/
def line (depth : Nat) (text : String) : String := indent depth ++ text ++ "\n"

/-- The attribute that refers to another resource. -/
def resourceAttribute : String := "rdf:resource"

end BillOfMaterials.Markup
