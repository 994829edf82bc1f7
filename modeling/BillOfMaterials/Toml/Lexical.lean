import BillOfMaterials.Text.Hexadecimal

/-! # Words of TOML

    * `skipTrivia` passes over spaces, line ends and comments, `endLine` over
      the rest of a line.
    * `readQuoted?` reads the four kinds of quoted text.
    * `readKey` reads a key of one or more names with dots between them.

    A reader takes the characters that are left and answers what it read with
    the characters after it, or nothing. -/

namespace BillOfMaterials.Toml

open Text (codePoint?)

/-! ## Spaces and comments -/

def isSpace (c : Char) : Bool := c == ' ' || c == '\t'

/-- Control characters other than the tab stand nowhere in a document. -/
def isAllowed (c : Char) : Bool := c == '\t' || (0x20 ≤ c.toNat && c.toNat != 0x7F)

def skipSpaces (s : List Char) : List Char := s.dropWhile isSpace

/-- Passes over a line end. -/
def skipNewline? : List Char → Option (List Char)
  | '\n' :: rest => some rest
  | '\r' :: '\n' :: rest => some rest
  | _ => none

/-- Passes over spaces, line ends and comments; `comment` is whether one is
    open. -/
def skipTrivia (comment : Bool) : List Char → Option (List Char)
  | [] => some []
  | '\n' :: rest => skipTrivia false rest
  | '\r' :: '\n' :: rest => skipTrivia false rest
  | c :: rest =>
    if comment then (if isAllowed c then skipTrivia true rest else none)
    else if isSpace c then skipTrivia false rest
    else if c = '#' then skipTrivia true rest
    else some (c :: rest)

/-- Passes over the rest of a line that holds nothing more than a comment. -/
def endLine (s : List Char) : Option (List Char) :=
  let rest := match skipSpaces s with
    | '#' :: rest => rest.dropWhile isAllowed
    | rest => rest
  match rest with
  | [] => some []
  | rest => skipNewline? rest

/-! ## Quoted text -/

/-- A quotation mark, and whether it stands three times around a text that may
    hold line ends. -/
structure Quoting where
  mark : Char
  multiline : Bool

/-- Double quotes allow escapes, single ones do not. -/
def Quoting.escapes (q : Quoting) : Bool := q.mark == '"'

/-- The character that a letter after a backslash stands for. -/
def escaped? : Char → Option Char
  | 'b' => some '\x08'
  | 't' => some '\t'
  | 'n' => some '\n'
  | 'f' => some '\x0c'
  | 'r' => some '\r'
  | 'e' => some '\x1b'
  | '"' => some '"'
  | '\\' => some '\\'
  | _ => none

/-- Puts characters before those of a reading. -/
def before (cs : List Char) (reading : Option (List Char × List Char)) : Option (List Char × List Char) :=
  reading.map fun (read, rest) => (cs ++ read, rest)

/-- Up to two quotation marks may stand right before the closing three. -/
def closeMultiline (mark : Char) : List Char → List Char × List Char
  | a :: b :: rest =>
    if a = mark ∧ b = mark then ([a, b], rest)
    else if a = mark then ([a], b :: rest)
    else ([], a :: b :: rest)
  | [a] => if a = mark then ([a], []) else ([], [a])
  | [] => ([], [])

/-- The text after an opening quotation mark, up to the closing one.  After a
    backslash at the end of a line, `skipping` is whether the blanks that follow
    are still left out. -/
def readBody (q : Quoting) (skipping : Bool) : List Char → Option (List Char × List Char)
  | [] => none
  | '\r' :: '\n' :: rest =>
    if !q.multiline then none
    else if skipping then readBody q true rest
    else before ['\r', '\n'] (readBody q false rest)
  | '\n' :: rest =>
    if !q.multiline then none
    else if skipping then readBody q true rest
    else before ['\n'] (readBody q false rest)
  | '\\' :: rest =>
    if !q.escapes then before ['\\'] (readBody q false rest)
    else if q.multiline && (skipNewline? (skipSpaces rest)).isSome then readBody q true rest
    else
      match rest with
      | 'x' :: a :: b :: rest => do before [← codePoint? [a, b]] (readBody q false rest)
      | 'u' :: a :: b :: c :: d :: rest => do
        before [← codePoint? [a, b, c, d]] (readBody q false rest)
      | 'U' :: a :: b :: c :: d :: e :: f :: g :: h :: rest => do
        before [← codePoint? [a, b, c, d, e, f, g, h]] (readBody q false rest)
      | c :: rest => do before [← escaped? c] (readBody q false rest)
      | [] => none
  | c :: rest =>
    if c = q.mark then
      if !q.multiline then some ([], rest)
      else
        match rest with
        | a :: b :: after =>
          if a = c ∧ b = c then some (closeMultiline c after)
          else before [c] (readBody q false rest)
        | _ => none
    else if skipping && isSpace c then readBody q true rest
    else if isAllowed c then before [c] (readBody q false rest)
    else none

/-- A line end right after the opening of a text of several lines is left out. -/
def dropNewline (s : List Char) : List Char := (skipNewline? s).getD s

/-- A quoted text of one line. -/
def readLineQuoted? : List Char → Option (Option (List Char × List Char))
  | '"' :: rest => some (readBody ⟨'"', false⟩ false rest)
  | '\'' :: rest => some (readBody ⟨'\'', false⟩ false rest)
  | _ => none

/-- A quoted text, if one begins here. -/
def readQuoted? : List Char → Option (Option (List Char × List Char))
  | '"' :: '"' :: '"' :: rest => some (readBody ⟨'"', true⟩ false (dropNewline rest))
  | '\'' :: '\'' :: '\'' :: rest => some (readBody ⟨'\'', true⟩ false (dropNewline rest))
  | s => readLineQuoted? s

/-! ## Keys -/

/-- The characters of names that need no quotes. -/
def isBare (c : Char) : Bool := c.isAlphanum || c == '-' || c == '_'

/-- One name of a key, bare or quoted. -/
def readName (s : List Char) : Option (String × List Char) :=
  match readLineQuoted? s with
  | some reading => reading.map fun (name, rest) => (String.ofList name, rest)
  | none =>
    let name := s.takeWhile isBare
    if name.isEmpty then none else some (String.ofList name, s.dropWhile isBare)

/-- A key of at most `fuel` names, with the spaces around it. -/
def readNames (fuel : Nat) (s : List Char) : Option (List String × List Char) :=
  match fuel with
  | 0 => none
  | fuel + 1 => do
    let (name, rest) ← readName (skipSpaces s)
    match skipSpaces rest with
    | '.' :: rest => do
      let (names, rest) ← readNames fuel rest
      return (name :: names, rest)
    | rest => return ([name], rest)

/-- The largest number of names in a key. -/
def maxNames : Nat := 80

/-- A key: its names with dots between them. -/
def readKey (s : List Char) : Option (List String × List Char) := readNames maxNames s

end BillOfMaterials.Toml
