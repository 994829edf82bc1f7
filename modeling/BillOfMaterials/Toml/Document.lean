import BillOfMaterials.Toml.Lexical
import BillOfMaterials.Toml.Scalar
import BillOfMaterials.Toml.Table

/-! # Reading TOML

    * `readValue` reads a value, with the values inside it.
    * `Toml.ofText?` reads a document: headers and keys with values, one to a
      line. -/

namespace BillOfMaterials.Toml

/-! ## Values -/

/-- Where a word ends. -/
def endsWord (c : Char) : Bool :=
  isSpace c || c == '\n' || c == '\r' || c == ',' || c == ']' || c == '}' || c == '#' ||
    c == '=' || c == '[' || c == '{' || c == '"' || c == '\''

/-- What follows a scalar.  It takes two words if a time of day stands after a
    date and a space. -/
def dropScalar? (s : List Char) : Option (List Char) :=
  let word := s.takeWhile (!endsWord ·)
  let rest := s.dropWhile (!endsWord ·)
  match rest with
  | ' ' :: c :: after =>
    if endsWord c then (if isScalar word then some rest else none)
    else
      let next := (c :: after).takeWhile (!endsWord ·)
      if isDateTime (word ++ ' ' :: next) then some ((c :: after).dropWhile (!endsWord ·))
      else none
  | rest => if isScalar word then some rest else none

/-- How deep arrays and inline tables may be nested. -/
def maxDepth : Nat := 80

mutual

/-- A value, read with at most `fuel` steps into values and their items, in which
    arrays and inline tables are nested at most `depth` deep. -/
def readValue (fuel depth : Nat) (s : List Char) : Option (Value × List Char) :=
  match fuel with
  | 0 => none
  | fuel + 1 =>
    match readQuoted? s with
    | some reading => reading.map fun (text, rest) => (.text (String.ofList text), rest)
    | none =>
      match s, depth with
      | '[' :: rest, depth + 1 => do
        let (items, rest) ← readItems fuel depth rest
        return (.list items, rest)
      | '{' :: rest, depth + 1 => do
        let (items, rest) ← readMembers fuel depth [] rest
        return (.table (Value.ofItems items), rest)
      | s, _ => (dropScalar? s).map (.scalar, ·)

/-- The items of an array up to its end. -/
def readItems (fuel depth : Nat) (s : List Char) : Option (List Value × List Char) :=
  match fuel with
  | 0 => none
  | fuel + 1 => do
    match ← skipTrivia false s with
    | ']' :: rest => return ([], rest)
    | s =>
      let (item, rest) ← readValue fuel depth s
      match ← skipTrivia false rest with
      | ',' :: rest => do
        let (items, rest) ← readItems fuel depth rest
        return (item :: items, rest)
      | ']' :: rest => return ([item], rest)
      | _ => none

/-- The members of an inline table up to its end, added to those before.  Line
    ends may stand on both sides of an equals sign. -/
def readMembers (fuel depth : Nat) (items : Items) (s : List Char) :
    Option (Items × List Char) :=
  match fuel with
  | 0 => none
  | fuel + 1 => do
    match ← skipTrivia false s with
    | '}' :: rest => return (items, rest)
    | s =>
      let (key, rest) ← readKey s
      let '=' :: rest ← skipTrivia false rest | none
      let (value, rest) ← readValue fuel depth (← skipTrivia false rest)
      let items ← setDotted value key items
      match ← skipTrivia false rest with
      | ',' :: rest => readMembers fuel depth items rest
      | '}' :: rest => return (items, rest)
      | _ => none

end

/-! ## Documents -/

/-- A document under construction: its entries, and the header that the next
    keys belong to. -/
structure Draft where
  items : Items
  header : List String

/-- A header's names, after its opening brackets and up to the closing ones. -/
def readHeader (closing : List Char) (s : List Char) : Option (List String × List Char) := do
  let (names, rest) ← readKey s
  if closing.isPrefixOf rest then return (names, rest.drop closing.length) else none

/-- The header or the key with its value at the start of a line. -/
def readLine (draft : Draft) (s : List Char) : Option (Draft × List Char) :=
  match s with
  | '[' :: '[' :: rest => do
    let (names, rest) ← readHeader [']', ']'] rest
    let items ← openElement names.dropLast (← names.getLast?) draft.items
    return ({ items, header := names }, rest)
  | '[' :: rest => do
    let (names, rest) ← readHeader [']'] rest
    let items ← openTable names.dropLast (← names.getLast?) draft.items
    return ({ items, header := names }, rest)
  | s => do
    let (key, rest) ← readKey s
    let '=' :: rest := rest | none
    let (value, rest) ← readValue (rest.length + 1) maxDepth (skipSpaces rest)
    let items ← setValue draft.header key value draft.items
    return ({ draft with items }, rest)

/-- At most `fuel` lines that hold anything. -/
def readLines (fuel : Nat) (draft : Draft) (s : List Char) : Option Draft := do
  match ← skipTrivia false s with
  | [] => return draft
  | s =>
    match fuel with
    | 0 => none
    | fuel + 1 =>
      let (draft, rest) ← readLine draft s
      readLines fuel draft (← endLine rest)

/-- The entries of a document, if its text is one.  A byte order mark may stand
    at its start. -/
def ofText? (text : String) : Option (List (String × Value)) := do
  let s := match text.toList with
    | '\uFEFF' :: rest => rest
    | s => s
  let draft ← readLines (s.length + 1) { items := [], header := [] } s
  return Value.ofItems draft.items

end BillOfMaterials.Toml
