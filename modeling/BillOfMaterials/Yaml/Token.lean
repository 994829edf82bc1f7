import BillOfMaterials.Yaml.Scalar
import BillOfMaterials.Yaml.Tag

/-! # Tokens

    * `Token` are the pieces that a document is made of.  Some of them stand for
      no characters: they tell where a block collection or one of its keys
      begins, or where the collection ends.
    * `readAnchorName`, `readTag` and `readDirective` read what stands after the
      signs for anchors, tags and directives. -/

namespace BillOfMaterials.Yaml

open Text (encodeUtf8)

inductive Token where
  | version (major minor : Nat)
  /-- Declares what a tag handle stands for. -/
  | tagHandle (handle : String) (start : List UInt8)
  | documentStart
  | documentEnd
  | blockSequence
  | blockMapping
  | blockEnd
  | flowSequence
  | flowSequenceEnd
  | flowMapping
  | flowMappingEnd
  /-- The sign before an item of a block sequence. -/
  | item
  /-- The comma between items of a flow collection. -/
  | separator
  | key
  | value
  | alias (name : String)
  | anchor (name : String)
  | tag (handle : String) (suffix : List UInt8)
  | scalar (plain : Bool) (text : String)
  deriving DecidableEq, Repr

/-! ## Words -/

/-- The characters of a class at the start, and the glyphs after them. -/
def takeWord (test : Char → Bool) (s : List Glyph) : List Char × List Glyph :=
  ((s.takeWhile (test ·.char)).map (·.char), s.dropWhile (test ·.char))

/-- The glyphs after a certain character. -/
def expect (c : Char) : List Glyph → Option (List Glyph)
  | [] => none
  | g :: rest => if g.char = c then some rest else none

/-- The glyphs after the end of a word. -/
def expectWordEnd (s : List Glyph) : Option (List Glyph) := if endsWord s then some s else none

def skipBlanks (s : List Glyph) : List Glyph := s.dropWhile (isBlank ·.char)

/-! ## Anchors -/

/-- The signs that may stand right after the name of an anchor. -/
def followsAnchor (c : Char) : Bool := "?:,]\x7d%@`".toList.contains c

/-- The name of an anchor or of an alias. -/
def readAnchorName (s : List Glyph) : Option (String × List Glyph) :=
  let (name, rest) := takeWord isWordChar s
  if name.isEmpty then none
  else if endsWord rest || startsWith followsAnchor rest then some (String.ofList name, rest)
  else none

/-! ## Tags -/

/-- The characters of tags; in brackets of their own more are allowed. -/
def isTagChar (bracketed : Bool) (c : Char) : Bool :=
  isWordChar c || ";/?:@&=+$.!~*'()".toList.contains c ||
    (bracketed && (c == ',' || c == '[' || c == ']'))

/-- One byte written as a percent sign and two digits. -/
def readPercent : List Glyph → Option (UInt8 × List Glyph)
  | p :: a :: b :: rest => do
    if p.char ≠ '%' then none
    return (UInt8.ofNat ((← Text.hexValue? a.char) * 16 + (← Text.hexValue? b.char)), rest)
  | _ => none

/-- At most `count` bytes written with percent signs. -/
def readPercents : Nat → List Glyph → Option (List UInt8 × List Glyph)
  | 0, s => some ([], s)
  | count + 1, s => do
    let (byte, s) ← readPercent s
    let (bytes, s) ← readPercents count s
    return (byte :: bytes, s)

/-- How many bytes the character takes that begins with a byte, if one may. -/
def byteCount? (first : UInt8) : Option Nat :=
  if first < 0x80 then some 1
  else if first < 0xC0 then none
  else if first < 0xE0 then some 2
  else if first < 0xF0 then some 3
  else if first < 0xF8 then some 4
  else none

/-- Whether a byte may stand inside a character. -/
def continues (byte : UInt8) : Bool := 0x80 ≤ byte && byte < 0xC0

/-- The bytes of one character, written with percent signs.  Whether there is a
    character of these bytes does not matter. -/
def readPercentChar (s : List Glyph) : Option (List UInt8 × List Glyph) := do
  let (first, _) ← readPercent s
  let (bytes, s) ← readPercents (← byteCount? first) s
  if bytes.tail.all continues then return (bytes, s) else none

/-- The bytes of a tag, of at most `fuel` words with percent signs between
    them. -/
def readTagBytes (bracketed : Bool) (fuel : Nat) (s : List Glyph) :
    Option (List UInt8 × List Glyph) :=
  match fuel with
  | 0 => some ([], s)
  | fuel + 1 =>
    let (word, s) := takeWord (isTagChar bracketed) s
    let bytes := encodeUtf8 (String.ofList word)
    if startsWith (· == '%') s then do
      let (more, s) ← readPercentChar s
      before (bytes ++ more) (readTagBytes bracketed fuel s)
    else some (bytes, s)

/-- The bytes of a tag after the characters that are already read of it. -/
def readTagRest (bracketed : Bool) (start : List Char) (s : List Glyph) :
    Option (List UInt8 × List Glyph) :=
  before (encodeUtf8 (String.ofList start)) (readTagBytes bracketed (s.length + 1) s)

/-- The bytes of a tag, or of the start of tags.  There must be some, even if
    they are cut off at a zero byte. -/
def readTagText (bracketed : Bool) (s : List Glyph) : Option (List UInt8 × List Glyph) := do
  let (bytes, s) ← readTagRest bracketed [] s
  if bytes.isEmpty then none else return (Tag.upToZero bytes, s)

/-- A tag after its exclamation mark.  A lone mark has no handle. -/
def readTag (flow : Bool) (s : List Glyph) : Option (Token × List Glyph) := do
  let (token, s) ← readWhole
  if flow && startsWith (· == ',') s then return (token, s)
  return (token, ← expectWordEnd s)
where
  /-- Its handle and its suffix. -/
  readWhole : Option (Token × List Glyph) :=
    if startsWith (· == '<') s then do
      let (suffix, s) ← readTagText true s.tail
      return (.tag "" suffix, ← expect '>' s)
    else
      let (word, after) := takeWord isWordChar s
      if startsWith (· == '!') after then do
        let (suffix, s) ← readTagText false after.tail
        return (.tag (String.ofList ('!' :: word ++ ['!'])) suffix, s)
      else do
        let (bytes, s) ← readTagRest false word after
        let suffix := Tag.upToZero bytes
        return (if suffix.isEmpty then .tag "" (encodeUtf8 "!") else .tag "!" suffix, s)

/-! ## Directives -/

/-- A number of at most nine digits. -/
def readNumber (s : List Glyph) : Option (Nat × List Glyph) :=
  let (digits, rest) := takeWord Char.isDigit s
  if digits.isEmpty || 9 < digits.length then none
  else some (Nat.ofDigitChars 10 digits 0, rest)

/-- The number of the version that a document is written for. -/
def readVersion (s : List Glyph) : Option (Token × List Glyph) := do
  let (major, s) ← readNumber (skipBlanks s)
  let (minor, s) ← readNumber (← expect '.' s)
  return (.version major minor, s)

/-- A handle, between exclamation marks. -/
def readHandle (s : List Glyph) : Option (String × List Glyph) := do
  let (word, s) := takeWord isWordChar (← expect '!' s)
  if startsWith (· == '!') s then return (String.ofList ('!' :: word ++ ['!']), s.tail)
  else if word.isEmpty then return ("!", s)
  else none

/-- A handle and what it stands for. -/
def readTagHandle (s : List Glyph) : Option (Token × List Glyph) := do
  let (handle, s) ← readHandle (skipBlanks s)
  if !startsWith isBlank s then none
  let (start, s) ← readTagText true (skipBlanks s)
  return (.tagHandle handle start, ← expectWordEnd s)

/-- A directive after its percent sign, with the rest of its line. -/
def readDirective (s : List Glyph) : Option (Token × List Glyph) := do
  let (name, s) := takeWord isWordChar s
  let s ← expectWordEnd s
  let (token, s) ←
    if name = "YAML".toList then readVersion s
    else if name = "TAG".toList then readTagHandle s
    else none
  return (token, ← endLine? s)

end BillOfMaterials.Yaml
