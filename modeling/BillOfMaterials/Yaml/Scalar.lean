import BillOfMaterials.Text.Hexadecimal
import BillOfMaterials.Yaml.Glyph

/-! # Scalars

    A scalar is a text in one of four styles.

    * `Gap` is the white space inside a plain or quoted scalar.  A single line
      end in it counts as a space, and of several the first one is left out.
    * `readQuoted` and `readPlain` read scalars whose lines are folded so.
    * `readBlock` reads a block scalar, whose lines are set off by indentation.

    A reader takes the glyphs that are left and answers the scalar's characters
    with the glyphs after it, or nothing. -/

namespace BillOfMaterials.Yaml

open Text (codePoint?)

/-! ## Gaps -/

/-- White space inside a scalar, as far as it is read. -/
structure Gap where
  /-- The blanks before the first line end; blanks at the ends of lines and at
      their starts do not count. -/
  spaces : List Char
  breaks : List Char
  /-- Whether a backslash takes away the first line end. -/
  escaped : Bool

namespace Gap

def empty : Gap := { spaces := [], breaks := [], escaped := false }

/-- The gap after a backslash at the end of a line. -/
def afterEscape : Gap := { empty with escaped := true }

/-- Whether the gap reaches into another line. -/
def isBroken (gap : Gap) : Bool := gap.escaped || !gap.breaks.isEmpty

def isEmpty (gap : Gap) : Bool := gap.spaces.isEmpty && !gap.isBroken

/-- Takes in a blank or a line end. -/
def add (gap : Gap) (c : Char) : Gap :=
  if isBreak c then { gap with spaces := [], breaks := gap.breaks ++ [c] }
  else if gap.isBroken then gap
  else { gap with spaces := gap.spaces ++ [c] }

/-- Line ends as they count in a text. -/
def fold : List Char → List Char
  | ['\n'] => [' ']
  | '\n' :: more => more
  | breaks => breaks

/-- What a gap amounts to. -/
def text (gap : Gap) : List Char :=
  if gap.escaped then gap.breaks
  else if gap.breaks.isEmpty then gap.spaces
  else fold gap.breaks

end Gap

/-- Puts characters, or bytes, before those of a reading. -/
def before {α β : Type} (start : List α) (reading : Option (List α × β)) : Option (List α × β) :=
  reading.map fun (read, rest) => (start ++ read, rest)

/-! ## Quoted scalars -/

/-- The character that a character after a backslash stands for. -/
def escaped? : Char → Option Char
  | '0' => some '\x00'
  | 'a' => some '\x07'
  | 'b' => some '\x08'
  | 't' | '\t' => some '\t'
  | 'n' => some '\n'
  | 'v' => some '\x0b'
  | 'f' => some '\x0c'
  | 'r' => some '\r'
  | 'e' => some '\x1b'
  | ' ' => some ' '
  | '"' => some '"'
  | '/' => some '/'
  | '\\' => some '\\'
  | 'N' => some '\x85'
  | '_' => some '\xa0'
  | 'L' => some '\u2028'
  | 'P' => some '\u2029'
  | _ => none

/-- How many digits of a character's number follow a character after a
    backslash. -/
def digitCount? : Char → Option Nat
  | 'x' => some 2
  | 'u' => some 4
  | 'U' => some 8
  | _ => none

/-- The character that stands after a backslash, and the number of glyphs that
    it takes. -/
def readEscape? : List Glyph → Option (Char × Nat)
  | [] => none
  | g :: rest =>
    match digitCount? g.char with
    | none => (escaped? g.char).map (·, 1)
    | some count =>
      if rest.length < count then none
      else (codePoint? ((rest.take count).map (·.char))).map (·, count + 1)

def startsWith (test : Char → Bool) : List Glyph → Bool
  | [] => false
  | g :: _ => test g.char

/-- The text after an opening quotation mark, up to the closing one.  `skip`
    glyphs are read already, and `gap` is the white space before the next. -/
def readQuoted (mark : Char) (skip : Nat) (gap : Gap) :
    List Glyph → Option (List Char × List Glyph)
  | [] => none
  | g :: rest =>
    let c := g.char
    match skip with
    | skip + 1 => readQuoted mark skip gap rest
    | 0 =>
      if isBlank c || isBreak c then readQuoted mark 0 (gap.add c) rest
      else if isDocumentMark (g :: rest) then none
      else if c == mark then
        if mark == '\'' && startsWith (· == '\'') rest then
          before (gap.text ++ ['\'']) (readQuoted mark 1 .empty rest)
        else some (gap.text, rest)
      else if c == '\\' && mark == '"' then
        if startsWith isBreak rest then before gap.text (readQuoted mark 1 .afterEscape rest)
        else
          match readEscape? rest with
          | some (e, taken) => before (gap.text ++ [e]) (readQuoted mark taken .empty rest)
          | none => none
      else before (gap.text ++ [c]) (readQuoted mark 0 .empty rest)

/-! ## Plain scalars -/

/-- The characters around and between the items of a flow collection. -/
def isFlowIndicator (c : Char) : Bool :=
  c == ',' || c == '[' || c == ']' || c == '\x7b' || c == '\x7d'

/-- Whether a plain scalar ends before these glyphs, the gap not included.  In a
    block its lines stand at the column `indent` or further right. -/
def endsPlain (flow : Bool) (indent : Nat) (gap : Gap) : List Glyph → Bool
  | [] => true
  | g :: rest =>
    (!gap.isEmpty && (isDocumentMark (g :: rest) || g.char == '#')) ||
      (!flow && gap.isBroken && g.column < indent) ||
      (g.char == ':' && endsWord rest) || (flow && isFlowIndicator g.char)

/-- A plain scalar, after a gap inside it, and whether a line end follows it. -/
def readPlain (flow : Bool) (indent : Nat) (gap : Gap) :
    List Glyph → Option (List Char × Bool × List Glyph)
  | [] => some ([], gap.isBroken, [])
  | g :: rest =>
    let c := g.char
    if isBlank c || isBreak c then
      if gap.isBroken && c == '\t' && g.column < indent then none
      else readPlain flow indent (gap.add c) rest
    else if endsPlain flow indent gap (g :: rest) then some ([], gap.isBroken, g :: rest)
    else if flow && c == ':' && startsWith (fun d => isFlowIndicator d || d == '?') rest then none
    else before (gap.text ++ [c]) (readPlain flow indent .empty rest)

/-! ## Block scalars -/

/-- What becomes of the line ends after the last line. -/
inductive Chomping where
  | strip
  | clip
  | keep
  deriving DecidableEq, Repr

def chomping? : Char → Option Chomping
  | '-' => some .strip
  | '+' => some .keep
  | _ => none

/-- A chomping sign, if there is one. -/
def takeChomping : List Glyph → Option Chomping × List Glyph
  | [] => (none, [])
  | g :: rest =>
    match chomping? g.char with
    | some chomping => (some chomping, rest)
    | none => (none, g :: rest)

/-- An indentation from one to nine, if there is a digit. -/
def takeIndentation : List Glyph → Option (Option Nat × List Glyph)
  | [] => some (none, [])
  | g :: rest =>
    if g.char = '0' then none
    else if g.char.isDigit then some (some (g.char.toNat - '0'.toNat), rest)
    else some (none, g :: rest)

/-- The rest of a line that holds nothing more than a comment, and its end. -/
def endLine? (s : List Glyph) : Option (List Glyph) :=
  let rest := s.dropWhile (isBlank ·.char)
  let rest := if startsWith (· == '#') rest then rest.dropWhile (!isBreak ·.char) else rest
  if endsLine rest then some rest.tail else none

/-- The chomping and the indentation in the first line of a block scalar, in
    either order. -/
def readHeader (s : List Glyph) : Option (Chomping × Option Nat × List Glyph) := do
  let (first?, s) := takeChomping s
  let (indentation?, s) ← takeIndentation s
  let (second?, s) := if first?.isSome then (none, s) else takeChomping s
  return ((first?.or second?).getD .clip, indentation?, ← endLine? s)

/-- The line ends before the next line that is not empty, with the largest
    column that was reached.  Without a known indentation every space is part of
    it, and a tab is refused there. -/
def readBreaks (indent? : Option Nat) (reached : Nat) :
    List Glyph → Option (Nat × List Char × List Glyph)
  | [] => some (reached, [], [])
  | g :: rest =>
    let inside := match indent? with
      | none => true
      | some indent => g.column < indent
    if inside && g.char == ' ' then readBreaks indent? (max reached (g.column + 1)) rest
    else if inside && g.char == '\t' then none
    else if isBreak g.char then
      (readBreaks indent? reached rest).map fun (reached, breaks, rest) =>
        (reached, g.char :: breaks, rest)
    else some (reached, [], g :: rest)

/-- What stands between two lines of a block scalar. -/
structure LineGap where
  /-- The end of the line before. -/
  lineEnd : List Char
  /-- The ends of empty lines. -/
  emptyLines : List Char
  /-- Whether the line before starts with a blank. -/
  afterBlank : Bool

/-- What a gap amounts to before a line.  In a folded scalar a line end counts
    as a space between two lines that do not start with blanks. -/
def LineGap.text (folded startsBlank : Bool) (gap : LineGap) : List Char :=
  if folded && gap.lineEnd == ['\n'] && !gap.afterBlank && !startsBlank then
    if gap.emptyLines.isEmpty then [' '] else gap.emptyLines
  else gap.lineEnd ++ gap.emptyLines

/-- What remains of a gap after the last line. -/
def LineGap.chomp (chomping : Chomping) (gap : LineGap) : List Char :=
  match chomping with
  | .strip => []
  | .clip => gap.lineEnd
  | .keep => gap.lineEnd ++ gap.emptyLines

/-- At most `fuel` lines of a block scalar that stand at the column `indent`. -/
def readBlockLines (folded : Bool) (chomping : Chomping) (indent fuel : Nat) (gap : LineGap)
    (s : List Glyph) : Option (List Char × List Glyph) :=
  match fuel, s with
  | fuel + 1, g :: rest =>
    if g.column = indent then do
      let s := g :: rest
      let startsBlank := isBlank g.char
      let line := (s.takeWhile (!isBreak ·.char)).map (·.char)
      let after := s.dropWhile (!isBreak ·.char)
      let lineEnd := (after.take 1).map (·.char)
      let (_, emptyLines, after) ← readBreaks (some indent) 0 after.tail
      before (gap.text folded startsBlank ++ line)
        (readBlockLines folded chomping indent fuel
          { lineEnd, emptyLines, afterBlank := startsBlank } after)
    else some (gap.chomp chomping, g :: rest)
  | _, s => some (gap.chomp chomping, s)

/-- A block scalar after its indicator, inside a collection at the column
    `parent?`. -/
def readBlock (folded : Bool) (parent? : Option Nat) (s : List Glyph) :
    Option (List Char × List Glyph) := do
  let (chomping, indentation?, s) ← readHeader s
  let given? := indentation?.map (parent?.getD 0 + ·)
  let (reached, emptyLines, s) ← readBreaks given? 0 s
  let least := match parent? with
    | some parent => parent + 1
    | none => 1
  let indent := given?.getD (max reached least)
  readBlockLines folded chomping indent (s.length + 1)
    { lineEnd := [], emptyLines, afterBlank := false } s

end BillOfMaterials.Yaml
