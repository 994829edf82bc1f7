import BillOfMaterials.Manifest.Basic

/-! # Reading a hash manifest

    Each line that holds data is an entry of three values: an algorithm, a
    digest and an asset.  Values are separated by blanks, and a value that
    starts with `#` begins a comment.  A carriage return before the end of a
    line is a blank like any other.

    * `dataLines` are the values of the lines that hold any.
    * `readAlgorithm` reads `name` or `name:length`.
    * `ofText` reads a manifest or answers the first fault; `load` does so for
      the text of a path. -/

namespace BillOfMaterials.Manifest

open Text

/-! ## Lines -/

/-- The values of a line, up to a comment. -/
def values (line : List Char) : List (List Char) :=
  (words line).takeWhile fun word => word.head? != some '#'

/-- The values of each line that holds any. -/
def dataLines (text : List Char) : List (List (List Char)) :=
  ((pieces (· == '\n') text).map values).filter (!·.isEmpty)

/-! ## Values -/

/-- Key lengths are below this number. -/
def keyLengthBound : Nat := Nat.pow 2 64

/-- A key length in decimal digits, with an optional plus sign: a positive
    number below `keyLengthBound`. -/
def readKeyLength (text : List Char) : Option Nat :=
  let digits := if text.head? = some '+' then text.tail else text
  let length := Nat.ofDigitChars 10 digits 0
  if !digits.isEmpty && digits.all Char.isDigit && 1 ≤ length && length < keyLengthBound then
    some length
  else none

/-- An algorithm.  What follows the first colon is its key length; nothing there
    is no key length.  The fault is the text that is none. -/
def readAlgorithm (value : List Char) : Except String Algorithm :=
  match cutAt [':'] value with
  | none => .ok { name := String.ofList value, keyLength? := none }
  | some (name, []) => .ok { name := String.ofList name, keyLength? := none }
  | some (name, length) =>
    match readKeyLength length with
    | some n => .ok { name := String.ofList name, keyLength? := some n }
    | none => .error (String.ofList length)

/-- The entry with number `n` from a line's values. -/
def readEntry (n : Nat) : List (List Char) → Except FormatError Entry
  | [algorithm, digest, asset] =>
    match readAlgorithm algorithm with
    | .ok algorithm => .ok (.listing algorithm (String.ofList digest) (String.ofList asset))
    | .error value => .error (.invalidKeyLength n value)
  | line => .error (if 3 < line.length then .tooManyValues n else .tooFewValues n)

/-- The entries from number `n` on. -/
def readEntries (n : Nat) : List (List (List Char)) → Except FormatError (List Entry)
  | [] => .ok []
  | line :: rest => do
    let entry ← readEntry n line
    return entry :: (← readEntries (n + 1) rest)

/-- The manifest that a text holds. -/
def ofText (text : String) : Except FormatError Manifest := do
  return ⟨← readEntries 1 (dataLines text.toList)⟩

/-- The manifest of a path, from the text that was read there or what the system
    says of a failure. -/
def load (path : Path) (content : Except String String) : Except LoadError Manifest :=
  match content with
  | .error details => .error (.unreadable path details)
  | .ok text =>
    match ofText text with
    | .ok manifest => .ok manifest
    | .error fault => .error (.malformed path fault)

end BillOfMaterials.Manifest
