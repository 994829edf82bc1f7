/-! # Placed characters

    What a character means in YAML depends on the line and the column in which
    it stands, and a key may take so many bytes only.  A text is therefore read
    as a list of glyphs, each a character with its place.

    * `Glyph.ofText?` places the characters of a text, if all may stand in one.
    * `isBlank`, `isBreak` and `endsWord` are the classes that readers go by. -/

namespace BillOfMaterials.Yaml

/-! ## Classes of characters -/

def isBlank (c : Char) : Bool := c == ' ' || c == '\t'

/-- The characters that end a line. -/
def isBreak (c : Char) : Bool :=
  c == '\n' || c == '\r' || c == '\x85' || c == '\u2028' || c == '\u2029'

/-- The characters of anchors, directives and tag handles. -/
def isWordChar (c : Char) : Bool := c.isAlphanum || c == '-' || c == '_'

/-- The characters that may stand in a document: no control characters but the
    tab and line ends. -/
def isPrintable (c : Char) : Bool :=
  let n := c.toNat
  n == 0x09 || n == 0x0A || n == 0x0D || (0x20 ≤ n && n ≤ 0x7E) || n == 0x85 ||
    (0xA0 ≤ n && n ≤ 0xFFFD) || 0x10000 ≤ n

/-- The byte order mark. -/
def byteOrderMark : Char := '\uFEFF'

/-! ## Glyphs -/

/-- A character and its place in the text. -/
structure Glyph where
  char : Char
  line : Nat
  column : Nat
  /-- How many bytes of the text stand before it. -/
  offset : Nat
  deriving DecidableEq, Repr

namespace Glyph

/-- Places characters from a line, a column and an offset on.  Every line end
    that is not a separator of its own becomes a line feed. -/
def place (line column offset : Nat) : List Char → List Glyph
  | [] => []
  | '\r' :: '\n' :: rest => ⟨'\n', line, column, offset⟩ :: place (line + 1) 0 (offset + 2) rest
  | c :: rest =>
    let after := offset + c.utf8Size
    if c = '\r' ∨ c = '\x85' then ⟨'\n', line, column, offset⟩ :: place (line + 1) 0 after rest
    else if isBreak c then ⟨c, line, column, offset⟩ :: place (line + 1) 0 after rest
    else ⟨c, line, column, offset⟩ :: place line (column + 1) after rest

/-- The glyphs of a text, if each of its characters may stand in a document. -/
def ofText? (text : String) : Option (List Glyph) :=
  if text.toList.all isPrintable then some (place 0 0 0 text.toList) else none

end Glyph

/-! ## Looking ahead -/

/-- Whether a line end or the end of the text follows. -/
def endsLine : List Glyph → Bool
  | [] => true
  | g :: _ => isBreak g.char

/-- Whether a blank, a line end or the end of the text follows. -/
def endsWord : List Glyph → Bool
  | [] => true
  | g :: _ => isBlank g.char || isBreak g.char

/-- Whether three glyphs stand alone at the start of a line. -/
def isMark (c : Char) : List Glyph → Bool
  | a :: b :: d :: rest =>
    a.column == 0 && a.char == c && b.char == c && d.char == c && endsWord rest
  | _ => false

/-- Whether a document starts or ends here. -/
def isDocumentMark (s : List Glyph) : Bool := isMark '-' s || isMark '.' s

end BillOfMaterials.Yaml
