import BillOfMaterials.Yaml.Layout

/-! # Trees of a document

    * `Tree` is a node as it is written: an alias in it only has the number of
      an anchor.
    * `readNode` builds a tree from tokens, and `readDocument` the tree of a
      whole document.
    * `Tree.ofText?` reads a text that holds at most one document. -/

namespace BillOfMaterials.Yaml

open Text (encodeUtf8)

inductive Tree where
  | scalar (tag? : Option Tag) (plain : Bool) (text : String)
  | sequence (tag? : Option Tag) (items : List Tree)
  | mapping (tag? : Option Tag) (entries : List (Tree × Tree))
  /-- A tree under the number of its anchor. -/
  | anchored (number : Nat) (tree : Tree)
  /-- Stands for the tree with a number. -/
  | alias (number : Nat)

namespace Tree

/-- What stands where nothing is written. -/
def empty : Tree := .scalar none true ""

mutual

/-- How many marks a tree is made of: one for a scalar or an alias, two for a
    collection. -/
def size : Tree → Nat
  | .scalar .. | .alias _ => 1
  | .sequence _ items => sizeOfItems items + 2
  | .mapping _ entries => sizeOfEntries entries + 2
  | .anchored _ tree => size tree

def sizeOfItems : List Tree → Nat
  | [] => 0
  | item :: rest => size item + sizeOfItems rest

def sizeOfEntries : List (Tree × Tree) → Nat
  | [] => 0
  | (key, value) :: rest => size key + size value + sizeOfEntries rest

end

mutual

/-- The trees with numbers, in the order in which they begin. -/
def anchors : Tree → List (Nat × Tree)
  | .scalar .. | .alias _ => []
  | .sequence _ items => anchorsOfItems items
  | .mapping _ entries => anchorsOfEntries entries
  | .anchored number tree => (number, tree) :: anchors tree

def anchorsOfItems : List Tree → List (Nat × Tree)
  | [] => []
  | item :: rest => anchors item ++ anchorsOfItems rest

def anchorsOfEntries : List (Tree × Tree) → List (Nat × Tree)
  | [] => []
  | (key, value) :: rest => anchors key ++ anchors value ++ anchorsOfEntries rest

end

end Tree

/-! ## Composing -/

/-- What is left to read and what is known so far. -/
structure Composing where
  tokens : List Token
  /-- What tag handles stand for. -/
  handles : List (String × List UInt8)
  /-- The names of anchors, each once, with the numbers that they have. -/
  numbers : List (String × Nat)

/-- Composes trees from tokens, or fails. -/
abbrev Compose := StateT Composing Option

/-- The next token. -/
def peek : Compose (Option Token) := return (← get).tokens.head?

/-- Passes over the next token. -/
def skip : Compose Unit := modify fun state => { state with tokens := state.tokens.tail }

/-- Passes over a token if it comes next, and tells whether it does. -/
def skipIf (token : Token) : Compose Bool := do
  if (← peek) == some token then
    skip
    return true
  return false

/-- Whether one of several tokens comes next. -/
def comes (tokens : List Token) : Compose Bool := do
  match ← peek with
  | some token => return tokens.contains token
  | none => return false

/-! ## Properties -/

/-- The tag that a handle and a suffix stand for. -/
def resolveTag (handle : String) (suffix : List UInt8) : Compose Tag := do
  if handle.isEmpty then return .ofBytes suffix
  match (← get).handles.lookup handle with
  | some start => return .ofBytes (start ++ suffix)
  | none => failure

/-- An anchor, if one comes next. -/
def readAnchor : Compose (Option String) := do
  match ← peek with
  | some (.anchor name) =>
    skip
    return some name
  | _ => return none

/-- A tag, if one comes next. -/
def readTagToken : Compose (Option Tag) := do
  match ← peek with
  | some (.tag handle suffix) =>
    skip
    return some (← resolveTag handle suffix)
  | _ => return none

/-- The anchor and the tag of a node, in either order. -/
def readProperties : Compose (Option String × Option Tag) := do
  match ← readAnchor with
  | some name => return (some name, ← readTagToken)
  | none =>
    let tag? ← readTagToken
    if tag?.isNone then return (none, none)
    return (← readAnchor, tag?)

/-- The alias for a name, which must be known.  It keeps the number that the
    name has at this place. -/
def aliasOf (name : String) : Compose Tree := do
  match (← get).numbers.lookup name with
  | some number => return .alias number
  | none => failure

/-- The number for a new anchor: how many names there are before it.  A name that
    is given again gets a new number, which another name may have, too. -/
def numberFor (name : String) : Compose Nat := do
  let numbers := (← get).numbers
  let number := numbers.length
  modify fun state => { state with numbers := (name, number) :: numbers.filter (·.1 != name) }
  return number

/-- Reads a tree under a name.  The name is known inside the tree. -/
def withAnchor (name? : Option String) (read : Compose Tree) : Compose Tree := do
  match name? with
  | none => read
  | some name =>
    let number ← numberFor name
    return .anchored number (← read)

/-! ## Nodes -/

mutual

/-- A node, read in at most `fuel` steps into nodes and their items.  `block`
    is whether a block collection may begin here, and `indentless` whether a
    block sequence may begin at the column of the mapping around it. -/
def readNode (fuel : Nat) (block indentless : Bool) : Compose Tree :=
  match fuel with
  | 0 => failure
  | fuel + 1 => do
    match ← peek with
    | some (.alias name) =>
      skip
      aliasOf name
    | _ =>
      let (name?, tag?) ← readProperties
      withAnchor name? do
        match ← peek with
        | some (.scalar plain text) =>
          skip
          return .scalar tag? plain text
        | some .flowSequence =>
          skip
          return .sequence tag? (← readFlowItems fuel true)
        | some .flowMapping =>
          skip
          return .mapping tag? (← readFlowEntries fuel true)
        | token? =>
          if block && token? == some .blockSequence then
            skip
            return .sequence tag? (← readBlockItems fuel)
          else if block && token? == some .blockMapping then
            skip
            return .mapping tag? (← readBlockEntries fuel)
          else if indentless && token? == some .item then
            return .sequence tag? (← readIndentlessItems fuel)
          else if name?.isSome || tag?.isSome then
            return .scalar tag? true ""
          else failure

/-- A node, or the empty one if one of some tokens comes next. -/
def readNodeUnless (fuel : Nat) (ends : List Token) (block indentless : Bool) : Compose Tree :=
  match fuel with
  | 0 => failure
  | fuel + 1 => do
    if ← comes ends then return .empty else readNode fuel block indentless

/-- A node after a colon, or the empty one. -/
def readValue (fuel : Nat) (ends : List Token) (block : Bool) : Compose Tree :=
  match fuel with
  | 0 => failure
  | fuel + 1 => do
    if ← skipIf .value then readNodeUnless fuel ends block block else return .empty

/-- The items of a block sequence up to its end. -/
def readBlockItems (fuel : Nat) : Compose (List Tree) :=
  match fuel with
  | 0 => failure
  | fuel + 1 => do
    if ← skipIf .blockEnd then return []
    else if ← skipIf .item then
      let item ← readNodeUnless fuel [.item, .blockEnd] true false
      return item :: (← readBlockItems fuel)
    else failure

/-- The items of a block sequence that has no column of its own. -/
def readIndentlessItems (fuel : Nat) : Compose (List Tree) :=
  match fuel with
  | 0 => failure
  | fuel + 1 => do
    if ← skipIf .item then
      let item ← readNodeUnless fuel [.item, .key, .value, .blockEnd] true false
      return item :: (← readIndentlessItems fuel)
    else return []

/-- The entries of a block mapping up to its end. -/
def readBlockEntries (fuel : Nat) : Compose (List (Tree × Tree)) :=
  match fuel with
  | 0 => failure
  | fuel + 1 => do
    if ← skipIf .blockEnd then return []
    else if ← skipIf .key then
      let key ← readNodeUnless fuel [.key, .value, .blockEnd] true true
      let value ← readValue fuel [.key, .value, .blockEnd] true
      return (key, value) :: (← readBlockEntries fuel)
    else failure

/-- The items of a flow sequence up to its end.  A key among them begins a
    mapping of one entry. -/
def readFlowItems (fuel : Nat) (first : Bool) : Compose (List Tree) :=
  match fuel with
  | 0 => failure
  | fuel + 1 => do
    if ← skipIf .flowSequenceEnd then return []
    let separated ← if first then pure true else skipIf .separator
    if !separated then failure
    if ← skipIf .flowSequenceEnd then return []
    let item ←
      if ← skipIf .key then
        let key ←
          if ← comes [.value, .separator, .flowSequenceEnd] then
            skip
            pure .empty
          else readNode fuel false false
        let value ← readValue fuel [.separator, .flowSequenceEnd] false
        pure (.mapping none [(key, value)])
      else readNode fuel false false
    return item :: (← readFlowItems fuel false)

/-- The entries of a flow mapping up to its end.  A key may stand without a
    value. -/
def readFlowEntries (fuel : Nat) (first : Bool) : Compose (List (Tree × Tree)) :=
  match fuel with
  | 0 => failure
  | fuel + 1 => do
    if ← skipIf .flowMappingEnd then return []
    let separated ← if first then pure true else skipIf .separator
    if !separated then failure
    if ← skipIf .flowMappingEnd then return []
    if ← skipIf .key then
      let key ← readNodeUnless fuel [.value, .separator, .flowMappingEnd] false false
      let value ← readValue fuel [.separator, .flowMappingEnd] false
      return (key, value) :: (← readFlowEntries fuel false)
    else
      let key ← readNode fuel false false
      return (key, .empty) :: (← readFlowEntries fuel false)

end

/-! ## Documents -/

/-- What the tag handles stand for that are not declared. -/
def defaultHandles : List (String × List UInt8) := [("!", encodeUtf8 "!"), ("!!", encodeUtf8 Tag.shared)]

/-- The directives before a document: at most one version, one that is known,
    and tag handles, each of them once. -/
def readDirectives (versioned : Bool) (declared : List (String × List UInt8)) :
    List Token → Option (List (String × List UInt8) × List Token)
  | .version major minor :: rest =>
    if versioned || major != 1 || (minor != 1 && minor != 2) then none
    else readDirectives true declared rest
  | .tagHandle handle start :: rest =>
    if (declared.lookup handle).isSome then none
    else readDirectives versioned (declared ++ [(handle, start)]) rest
  | tokens => some (declared, tokens)

/-- The tokens that end a document or begin another. -/
def isDocumentToken : Token → Bool
  | .version .. | .tagHandle .. | .documentStart | .documentEnd => true
  | _ => false

/-- The tree of the only document that tokens hold. -/
def readDocument (tokens : List Token) : Option Tree := do
  let begin (handles : List (String × List UInt8)) (tokens : List Token) : Composing :=
    { tokens, handles := handles ++ defaultHandles, numbers := [] }
  let fuel := 4 * tokens.length + 4
  let (declared, content) ← readDirectives false [] tokens
  let (tree, state) ←
    if content.length == tokens.length && content.head? != some .documentStart then
      (readNode fuel true false).run (begin [] tokens)
    else
      match content with
      | .documentStart :: content =>
        if content.head?.all isDocumentToken then some (.empty, begin declared content)
        else (readNode fuel true false).run (begin declared content)
      | _ => none
  if state.tokens.all (· == .documentEnd) then return tree else none

/-- The tree of a text that holds a document, or the empty tree if it holds
    none. -/
def Tree.ofText? (text : String) : Option Tree := do
  match ← tokens? text with
  | [] => return .empty
  | tokens => readDocument tokens

end BillOfMaterials.Yaml
