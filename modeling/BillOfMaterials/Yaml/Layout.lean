import BillOfMaterials.Yaml.Token

/-! # The layout of a document

    Block collections are set off by columns, and a key of a mapping is told
    only by the colon after it.  So the tokens of a text are found with a record
    of what is open.

    * `Layout` is that record.
    * `Layout.next` finds the next token with characters, and puts tokens for
      block collections and keys where they belong.
    * `tokens?` are all tokens of a text. -/

namespace BillOfMaterials.Yaml

/-- A place where a key may have begun: the colon after it has yet to come. -/
structure PossibleKey where
  /-- Whether there must be a key, because of the column. -/
  required : Bool
  /-- How many tokens stand before it. -/
  position : Nat
  line : Nat
  column : Nat
  /-- How many bytes of the text stand before it. -/
  offset : Nat

/-- What is open at a place in a text. -/
structure Layout where
  /-- The tokens so far, the newest first. -/
  tokens : List Token
  /-- The columns of the open block collections, the innermost first. -/
  columns : List Nat
  /-- Whether a key may begin here. -/
  keyAllowed : Bool
  key? : Option PossibleKey
  /-- The possible keys around each open flow collection, the innermost first. -/
  outer : List (Option PossibleKey)

namespace Layout

def start : Layout := { tokens := [], columns := [], keyAllowed := true, key? := none, outer := [] }

/-- Whether a flow collection is open. -/
def inFlow (layout : Layout) : Bool := !layout.outer.isEmpty

def emit (layout : Layout) (token : Token) : Layout :=
  { layout with tokens := token :: layout.tokens }

/-- Puts a token after the first `position` ones. -/
def emitAt (layout : Layout) (position : Nat) (token : Token) : Layout :=
  let newer := layout.tokens.length - position
  { layout with tokens := layout.tokens.take newer ++ token :: layout.tokens.drop newer }

def allowKey (layout : Layout) (allowed : Bool) : Layout := { layout with keyAllowed := allowed }

/-! ## Block collections -/

/-- Closes the innermost block collections as long as `closes` holds of their
    columns. -/
def close (closes : Nat → Bool) (layout : Layout) : Layout :=
  if layout.inFlow then layout
  else
    { layout with
      tokens := List.replicate (layout.columns.takeWhile closes).length .blockEnd ++ layout.tokens
      columns := layout.columns.dropWhile closes }

/-- Whether a column is to the right of every open block collection. -/
def isDeeper (layout : Layout) (column : Nat) : Bool :=
  match layout.columns with
  | [] => true
  | innermost :: _ => innermost < column

/-- Opens a block collection after the first `position` tokens, unless one is
    open at its column. -/
def openBlock (layout : Layout) (column position : Nat) (token : Token) : Layout :=
  if layout.inFlow || !layout.isDeeper column then layout
  else { layout.emitAt position token with columns := column :: layout.columns }

/-- Opens a block collection here. -/
def openBlockHere (layout : Layout) (g : Glyph) (token : Token) : Layout :=
  layout.openBlock g.column layout.tokens.length token

/-! ## Keys -/

/-- Gives up a possible key.  It must not be a required one. -/
def dropKey (layout : Layout) : Option Layout :=
  match layout.key? with
  | some key => if key.required then none else some { layout with key? := none }
  | none => some layout

/-- Notes that a key may begin here. -/
def noteKey (layout : Layout) (g : Glyph) : Option Layout :=
  if layout.keyAllowed then do
    let required := !layout.inFlow && layout.columns.head? == some g.column
    let position := layout.tokens.length
    let key := { required, position, line := g.line, column := g.column, offset := g.offset }
    return { ← layout.dropKey with key? := some key }
  else some layout

/-- The largest number of bytes from the start of a key to its colon. -/
def maxKeyLength : Nat := 1024

/-- A possible key that can still be one at a later place: a key stands on one
    line and is not too long.  A required one must not fall away. -/
def keepKey (g : Glyph) : Option PossibleKey → Option (Option PossibleKey)
  | none => some none
  | some key =>
    if key.line < g.line || key.offset + maxKeyLength < g.offset then
      if key.required then none else some none
    else some (some key)

/-- Gives up the possible keys that cannot be keys any more. -/
def keepKeys (layout : Layout) (g : Glyph) : Option Layout := do
  return { layout with key? := ← keepKey g layout.key?, outer := ← layout.outer.mapM (keepKey g) }

/-! ## Spaces and comments -/

/-- Passes over white space and comments; `comment` is whether one is open.  A
    key may begin on a new line of a block.  A byte order mark may start a line. -/
def skipTrivia (comment : Bool) (layout : Layout) : List Glyph → Layout × List Glyph
  | [] => (layout, [])
  | g :: rest =>
    if isBreak g.char then skipTrivia false (layout.allowKey (layout.keyAllowed || !layout.inFlow)) rest
    else if comment then skipTrivia true layout rest
    else if g.char == '#' then skipTrivia true layout rest
    else if g.char == ' ' then skipTrivia false layout rest
    else if g.char == '\t' && (layout.inFlow || !layout.keyAllowed) then
      skipTrivia false layout rest
    else if g.char == byteOrderMark && g.column == 0 then
      skipTrivia false layout rest
    else (layout, g :: rest)

/-! ## Signs -/

/-- A directive, or a mark of a document's start or end: it closes everything. -/
def endDocument (layout : Layout) : Option Layout := do
  return (← (layout.close fun _ => true).dropKey).allowKey false

/-- An opening bracket. -/
def openFlow (layout : Layout) (g : Glyph) (token : Token) : Option Layout := do
  let layout ← layout.noteKey g
  return { layout.emit token with
    keyAllowed := true, key? := none, outer := layout.key? :: layout.outer }

/-- A closing bracket. -/
def closeFlow (layout : Layout) (token : Token) : Option Layout := do
  let layout ← layout.dropKey
  return { layout.emit token with
    keyAllowed := false, key? := layout.outer.headD none, outer := layout.outer.tail }

/-- A comma between items of a flow collection. -/
def separate (layout : Layout) : Option Layout := do
  return ((← layout.dropKey).allowKey true).emit .separator

/-- The sign before an item or a key of a block collection. -/
def openItem (layout : Layout) (g : Glyph) (collection token : Token) (keyAllowed : Bool) :
    Option Layout := do
  if !layout.inFlow && !layout.keyAllowed then none
  let layout ← (layout.openBlockHere g collection).dropKey
  return (layout.allowKey keyAllowed).emit token

/-- The colon after a key. -/
def openValue (layout : Layout) (g : Glyph) : Option Layout :=
  match layout.key? with
  | some key =>
    let layout := layout.emitAt key.position .key
    let layout := layout.openBlock key.column key.position .blockMapping
    some ({ layout with key? := none, keyAllowed := false }.emit .value)
  | none => do
    if !layout.inFlow && !layout.keyAllowed then none
    let layout := layout.openBlockHere g .blockMapping
    return (layout.allowKey !layout.inFlow).emit .value

/-- The start of a node, where a key may begin. -/
def startNode (layout : Layout) (g : Glyph) : Option Layout := do
  return (← layout.noteKey g).allowKey false

/-! ## Tokens -/

/-- The signs that a plain scalar does not begin with. -/
def isIndicator (c : Char) : Bool := "\t-?:,[]\x7b\x7d#&*!|>'\"%@`".toList.contains c

/-- Whether a plain scalar begins with a character that is no sign here. -/
def startsPlain (flow : Bool) (c : Char) : Bool :=
  !isIndicator c || c == '-' || (!flow && (c == '?' || c == ':'))

/-- The next token, which begins with the glyph `g`. -/
def next (layout : Layout) (g : Glyph) (rest : List Glyph) : Option (Layout × List Glyph) := do
  let s := g :: rest
  let flow := layout.inFlow
  let alone := flow || endsWord rest
  if g.column == 0 && g.char == '%' then
    let (token, rest) ← readDirective rest
    return ((← layout.endDocument).emit token, rest)
  else if isMark '-' s then return ((← layout.endDocument).emit .documentStart, s.drop 3)
  else if isMark '.' s then return ((← layout.endDocument).emit .documentEnd, s.drop 3)
  else
    match g.char with
    | '[' => return (← layout.openFlow g .flowSequence, rest)
    | '{' => return (← layout.openFlow g .flowMapping, rest)
    | ']' => return (← layout.closeFlow .flowSequenceEnd, rest)
    | '}' => return (← layout.closeFlow .flowMappingEnd, rest)
    | ',' => return (← layout.separate, rest)
    | '*' =>
      let (name, rest) ← readAnchorName rest
      return ((← layout.startNode g).emit (.alias name), rest)
    | '&' =>
      let (name, rest) ← readAnchorName rest
      return ((← layout.startNode g).emit (.anchor name), rest)
    | '!' =>
      let (token, rest) ← readTag flow rest
      return ((← layout.startNode g).emit token, rest)
    | '\'' | '"' =>
      let (text, rest) ← readQuoted g.char 0 .empty rest
      return ((← layout.startNode g).emit (.scalar false (String.ofList text)), rest)
    | c =>
      if c == '-' && endsWord rest then
        return (← layout.openItem g .blockSequence .item true, rest)
      else if c == '?' && alone then
        return (← layout.openItem g .blockMapping .key !flow, rest)
      else if c == ':' && alone then return (← layout.openValue g, rest)
      else if (c == '|' || c == '>') && !flow then
        let (text, rest) ← readBlock (c == '>') layout.columns.head? rest
        return (((← layout.dropKey).allowKey true).emit (.scalar false (String.ofList text)), rest)
      else if startsPlain flow c then
        let indent := match layout.columns with
          | [] => 0
          | innermost :: _ => innermost + 1
        let (text, broken, rest) ← readPlain flow indent .empty s
        let layout ← layout.startNode g
        return ((layout.allowKey (layout.keyAllowed || broken)).emit
          (.scalar true (String.ofList text)), rest)
      else none

/-- All tokens of glyphs, at most `fuel` of them with characters. -/
def scan (fuel : Nat) (layout : Layout) (s : List Glyph) : Option (List Token) := do
  match skipTrivia false layout s with
  | (layout, []) => return (← layout.endDocument).tokens.reverse
  | (layout, g :: rest) =>
    match fuel with
    | 0 => none
    | fuel + 1 =>
      let layout ← layout.keepKeys g
      let (layout, rest) ← (layout.close (g.column < ·)).next g rest
      scan fuel layout rest

end Layout

/-- The tokens of a text. -/
def tokens? (text : String) : Option (List Token) := do
  let glyphs ← Glyph.ofText? text
  Layout.scan (glyphs.length + 1) .start glyphs

end BillOfMaterials.Yaml
