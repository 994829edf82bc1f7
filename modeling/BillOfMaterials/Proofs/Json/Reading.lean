import BillOfMaterials.Json

/-! # Reading JSON text

    A reader takes a text character by character.  Its `Mode` says where in a token it
    stands, its `Place` what may stand next in the value; together they accept the
    JSON texts without numbers, which no report holds, and keep every member of an
    object in order, also under a name that is there already.

    * `Place.next?` and `Reader.step` are the steps, `read?` is the run of all.
    * `Reads s p p'` says that the text `s` takes a reader from one place to another.
    * `spells_quote` and `reads_pretty`: what is written of a text or a value is read as
      that text or value.
    * `read?_pretty` is the round trip. -/

namespace BillOfMaterials.Json

open Text

/-! ## Values from tokens -/

inductive Token where
  | openObject
  | closeObject
  | openList
  | closeList
  | colon
  | comma
  | scalar (value : Json)

/-- A list or an object that is still open, the newest part first. -/
inductive Frame where
  | list (items : List Json)
  /-- The value of the member `name` comes next. -/
  | object (members : List (String × Json)) (name : String)

/-- What comes next. -/
inductive Place where
  /-- A value, or the end of the list that has just been opened. -/
  | beforeValue (mayEnd : Bool) (outer : List Frame)
  /-- The name of a member, or the end of the object that has just been opened. -/
  | beforeName (mayEnd : Bool) (members : List (String × Json)) (outer : List Frame)
  | beforeColon (members : List (String × Json)) (name : String) (outer : List Frame)
  /-- A comma, or the end of what the value stands in. -/
  | afterValue (value : Json) (outer : List Frame)

def Place.next? : Place → Token → Option Place
  | .beforeValue _ outer, .scalar value => some (.afterValue value outer)
  | .beforeValue _ outer, .openList => some (.beforeValue true (.list [] :: outer))
  | .beforeValue _ outer, .openObject => some (.beforeName true [] outer)
  | .beforeValue true (.list [] :: outer), .closeList => some (.afterValue (.list []) outer)
  | .beforeName _ members outer, .scalar (.text name) => some (.beforeColon members name outer)
  | .beforeName true [] outer, .closeObject => some (.afterValue (.object []) outer)
  | .beforeColon members name outer, .colon =>
    some (.beforeValue false (.object members name :: outer))
  | .afterValue value (.list items :: outer), .comma =>
    some (.beforeValue false (.list (value :: items) :: outer))
  | .afterValue value (.list items :: outer), .closeList =>
    some (.afterValue (.list (value :: items).reverse) outer)
  | .afterValue value (.object members name :: outer), .comma =>
    some (.beforeName false ((name, value) :: members) outer)
  | .afterValue value (.object members name :: outer), .closeObject =>
    some (.afterValue (.object ((name, value) :: members).reverse) outer)
  | _, _ => none

/-! ## Tokens from characters -/

/-- The characters with these numbers.  A high surrogate waits for the low one that
    must follow it; together they are one character. -/
def charsOf? : Option Nat → List Nat → Option (List Char)
  | none, [] => some []
  | some _, [] => none
  | none, code :: rest =>
    if 0xD800 ≤ code ∧ code < 0xDC00 then charsOf? (some code) rest
    else if code.isValidChar then (charsOf? none rest).map (Char.ofNat code :: ·)
    else none
  | some high, low :: rest =>
    if 0xDC00 ≤ low ∧ low < 0xE000 then
      (charsOf? none rest).map
        (Char.ofNat (0x10000 + (high - 0xD800) * 0x400 + (low - 0xDC00)) :: ·)
    else none

/-- Where in a token the reader stands.  The numbers of a text's characters so far are
    `codes`, newest first. -/
inductive Mode where
  | between
  /-- In `null`, `true` or `false`, with the letters `rest` to come. -/
  | literal (rest : List Char) (value : Json)
  | quoted (codes : List Nat)
  /-- After a backslash. -/
  | escaped (codes : List Nat)
  /-- After `\u` and digits of the number `code`, with `left` digits to come. -/
  | hex (codes : List Nat) (left code : Nat)

structure Reader where
  mode : Mode
  place : Place

/-- The reader after a whole token. -/
def Place.take (place : Place) (token : Token) : Option Reader :=
  (place.next? token).map fun next => ⟨.between, next⟩

namespace Reader

/-- A character between tokens. -/
def start (place : Place) (c : Char) : Option Reader :=
  match c with
  | ' ' | '\t' | '\n' | '\r' => some ⟨.between, place⟩
  | '\x7b' => place.take .openObject
  | '\x7d' => place.take .closeObject
  | '[' => place.take .openList
  | ']' => place.take .closeList
  | ':' => place.take .colon
  | ',' => place.take .comma
  | '"' => some ⟨.quoted [], place⟩
  | 'n' => some ⟨.literal ['u', 'l', 'l'] .null, place⟩
  | 't' => some ⟨.literal ['r', 'u', 'e'] (.bool true), place⟩
  | 'f' => some ⟨.literal ['a', 'l', 's', 'e'] (.bool false), place⟩
  | _ => none

/-- The number that a character stands for after a backslash. -/
def escapeCode? (c : Char) : Option Nat :=
  match c with
  | '"' | '\\' | '/' => some c.toNat
  | 'b' => some 0x08
  | 't' => some 0x09
  | 'n' => some 0x0a
  | 'f' => some 0x0c
  | 'r' => some 0x0d
  | _ => none

def step : Reader → Char → Option Reader
  | ⟨.between, place⟩, c => start place c
  | ⟨.literal [] _, _⟩, _ => none
  | ⟨.literal (next :: rest) value, place⟩, c =>
    if c = next then
      if rest.isEmpty then place.take (.scalar value) else some ⟨.literal rest value, place⟩
    else none
  | ⟨.quoted codes, place⟩, c =>
    if c = '"' then
      (charsOf? none codes.reverse).bind fun text => place.take (.scalar (.text (String.ofList text)))
    else if c = '\\' then some ⟨.escaped codes, place⟩
    else if c.toNat < 0x20 then none
    else some ⟨.quoted (c.toNat :: codes), place⟩
  | ⟨.escaped codes, place⟩, c =>
    if c = 'u' then some ⟨.hex codes 4 0, place⟩
    else (escapeCode? c).map fun code => ⟨.quoted (code :: codes), place⟩
  | ⟨.hex codes left code, place⟩, c =>
    (hexValue? c).map fun digit =>
      if left = 1 then ⟨.quoted ((16 * code + digit) :: codes), place⟩
      else ⟨.hex codes (left - 1) (16 * code + digit), place⟩

end Reader

/-- The value that a text holds, with nothing but space around it. -/
def read? (text : String) : Option Json := do
  let reader ← text.toList.foldlM Reader.step ⟨.between, .beforeValue false []⟩
  match reader with
  | ⟨.between, .afterValue value []⟩ => some value
  | _ => none

/-! ## Runs -/

/-- Between tokens, the text takes a reader from one place to another. -/
def Reads (s : List Char) (place place' : Place) : Prop :=
  s.foldlM Reader.step ⟨.between, place⟩ = some ⟨.between, place'⟩

theorem Reads.append {s s' : List Char} {place between place' : Place} (h : Reads s place between)
    (h' : Reads s' between place') : Reads (s ++ s') place place' := by
  have hfirst : s.foldlM Reader.step ⟨.between, place⟩ = some ⟨.between, between⟩ := h
  rw [Reads, List.foldlM_append, hfirst]
  exact h'

/-- Wherever the token may stand, the text is read as the token. -/
def Spells (s : List Char) (token : Token) : Prop :=
  ∀ place place', place.next? token = some place' → Reads s place place'

theorem reads_newLine (depth : Nat) (place : Place) :
    Reads (newLine depth).toList place place := by
  have hspaces : ∀ n, Reads (List.replicate n ' ') place place := by
    intro n
    induction n with
    | zero => rfl
    | succ n ih => exact ih
  have hlist : (newLine depth).toList = '\n' :: List.replicate (2 * depth) ' ' := by simp [newLine]
  rw [hlist]
  exact hspaces (2 * depth)

theorem spells_of_take {c : Char} {token : Token}
    (h : ∀ place, Reader.start place c = place.take token) : Spells [c] token := by
  intro place place' hnext
  have hstep : Reader.step ⟨.between, place⟩ c = some ⟨.between, place'⟩ := by
    rw [Reader.step, h, Place.take, hnext, Option.map_some]
  rw [Reads, List.foldlM_cons, hstep]
  rfl

/-! ## Texts -/

theorem charsOf?_toNat (s : List Char) : charsOf? none (s.map Char.toNat) = some s := by
  induction s with
  | nil => rfl
  | cons c s ih =>
    -- No character is a surrogate.
    have hvalid : c.toNat.isValidChar := c.valid
    have hsurrogate : ¬ (0xD800 ≤ c.toNat ∧ c.toNat < 0xDC00) := by
      rw [Nat.isValidChar] at hvalid
      omega
    rw [List.map_cons, charsOf?, if_neg hsurrogate, if_pos hvalid, ih, Option.map_some,
      Char.ofNat_toNat]

theorem hexValue?_hexDigit : ∀ n < 16, hexValue? (hexDigit n) = some n := by decide

/-- An escaped character is read as the character. -/
theorem foldlM_escapeChar (c : Char) (codes : List Nat) (place : Place) :
    (escapeChar c).foldlM Reader.step ⟨.quoted codes, place⟩ =
      some ⟨.quoted (c.toNat :: codes), place⟩ := by
  unfold escapeChar
  split
  -- Seven characters have an escape of two characters.
  iterate 7 rfl
  · next hquote hbackslash _ _ _ _ _ =>
    split
    · next hcontrol =>
      have hhigh : hexValue? (hexDigit (c.toNat / 16)) = some (c.toNat / 16) :=
        hexValue?_hexDigit _ (by omega)
      have hlow : hexValue? (hexDigit (c.toNat % 16)) = some (c.toNat % 16) :=
        hexValue?_hexDigit _ (by omega)
      have hzero : hexValue? '0' = some 0 := by decide
      have hcode : 16 * (c.toNat / 16) + c.toNat % 16 = c.toNat := by omega
      simp [Reader.step, hhigh, hlow, hzero, hcode]
    · next hplain =>
      have hstep : Reader.step ⟨.quoted codes, place⟩ c = some ⟨.quoted (c.toNat :: codes), place⟩ := by
        rw [Reader.step, if_neg hquote, if_neg hbackslash, if_neg hplain]
      rw [List.foldlM_cons, hstep]
      rfl

theorem foldlM_flatMap_escapeChar (s : List Char) (codes : List Nat) (place : Place) :
    (s.flatMap escapeChar).foldlM Reader.step ⟨.quoted codes, place⟩ =
      some ⟨.quoted ((s.map Char.toNat).reverse ++ codes), place⟩ := by
  induction s generalizing codes with
  | nil => rfl
  | cons c s ih =>
    rw [List.flatMap_cons, List.foldlM_append, foldlM_escapeChar, Option.bind_eq_bind,
      Option.bind_some, ih]
    simp

/-- **Texts.** A quoted text is read as the text. -/
theorem spells_quote (text : String) : Spells (quote text).toList (.scalar (.text text)) := by
  intro place place' hnext
  have hclose : Reader.step ⟨.quoted ((text.toList.map Char.toNat).reverse ++ []), place⟩ '"' =
      some ⟨.between, place'⟩ := by
    rw [List.append_nil]
    simp [Reader.step, charsOf?_toNat, Place.take, hnext]
  have hlist : (quote text).toList = '"' :: (text.toList.flatMap escapeChar ++ ['"']) := by
    simp [quote]
  rw [Reads, hlist]
  show (text.toList.flatMap escapeChar ++ ['"']).foldlM Reader.step ⟨.quoted [], place⟩ = _
  rw [List.foldlM_append, foldlM_flatMap_escapeChar, Option.bind_eq_bind, Option.bind_some,
    List.foldlM_cons, hclose]
  rfl

/-! ## Values -/

theorem spells_null : Spells "null".toList (.scalar .null) := by
  intro place place' hnext
  simp [Reads, Reader.step, Reader.start, Place.take, hnext]

theorem spells_boolText (value : Bool) : Spells (boolText value).toList (.scalar (.bool value)) := by
  intro place place' hnext
  cases value <;> simp [boolText, Reads, Reader.step, Reader.start, Place.take, hnext]

theorem spells_comma : Spells [','] .comma := spells_of_take fun _ => rfl

theorem spells_colon : Spells [':'] .colon := spells_of_take fun _ => rfl

theorem spells_openList : Spells ['['] .openList := spells_of_take fun _ => rfl

theorem spells_closeList : Spells [']'] .closeList := spells_of_take fun _ => rfl

theorem spells_openObject : Spells ['\x7b'] .openObject := spells_of_take fun _ => rfl

theorem spells_closeObject : Spells ['\x7d'] .closeObject := spells_of_take fun _ => rfl

/-- A member, if its value is read. -/
theorem reads_member {depth : Nat} {name : String} {value : Json} {outer : List Frame}
    {members : List (String × Json)}
    (h : Reads (pretty depth value).toList (.beforeValue false (.object members name :: outer))
      (.afterValue value (.object members name :: outer))) (mayEnd : Bool) :
    Reads (newLine depth ++ quote name ++ ": " ++ pretty depth value).toList
      (.beforeName mayEnd members outer) (.afterValue value (.object members name :: outer)) := by
  have hname := (reads_newLine depth _).append
    (spells_quote name (.beforeName mayEnd members outer) _ rfl)
  have hspace : Reads [' '] (.beforeValue false (.object members name :: outer))
      (.beforeValue false (.object members name :: outer)) := rfl
  have hcolon := (spells_colon (.beforeColon members name outer) _ rfl).append hspace
  rw [String.toList_append, String.toList_append, String.toList_append]
  exact (hname.append hcolon).append h

mutual

/-- **Values.** What is written of a value is read as the value, wherever one may stand. -/
theorem reads_pretty : ∀ (value : Json) (depth : Nat) (mayEnd : Bool) (outer : List Frame),
    Reads (pretty depth value).toList (.beforeValue mayEnd outer) (.afterValue value outer)
  | .null, depth, mayEnd, outer => by
    rw [pretty]
    exact spells_null _ _ rfl
  | .bool value, depth, mayEnd, outer => by
    rw [pretty]
    exact spells_boolText value _ _ rfl
  | .text value, depth, mayEnd, outer => by
    rw [pretty]
    exact spells_quote value _ _ rfl
  | .list items, depth, mayEnd, outer => by
    have hopen := spells_openList (.beforeValue mayEnd outer) _ rfl
    cases items with
    | nil =>
      rw [pretty]
      exact hopen.append (spells_closeList _ _ rfl)
    | cons first rest =>
      have hitems := reads_prettyItems (first :: rest) (by simp) depth true [] outer
      simpa [pretty] using hopen.append hitems
  | .object members, depth, mayEnd, outer => by
    have hopen := spells_openObject (.beforeValue mayEnd outer) _ rfl
    cases members with
    | nil =>
      rw [pretty]
      exact hopen.append (spells_closeObject _ _ rfl)
    | cons first rest =>
      have hmembers := reads_prettyMembers (first :: rest) (by simp) depth true [] outer
      simpa [pretty] using hopen.append hmembers

/-- The items of a list after the items `before`, and the end of the list. -/
theorem reads_prettyItems : ∀ (items : List Json), items ≠ [] → ∀ (depth : Nat) (mayEnd : Bool)
    (before : List Json) (outer : List Frame),
    Reads (prettyItems (depth + 1) items ++ newLine depth ++ "]").toList
      (.beforeValue mayEnd (.list before :: outer))
      (.afterValue (.list (before.reverse ++ items)) outer)
  | [], h, _, _, _, _ => absurd rfl h
  | [item], _, depth, mayEnd, before, outer => by
    have hitem := (reads_newLine (depth + 1) _).append
      (reads_pretty item (depth + 1) mayEnd (.list before :: outer))
    have hend := (reads_newLine depth _).append (spells_closeList
      (.afterValue item (.list before :: outer)) _ rfl)
    simpa [prettyItems] using hitem.append hend
  | item :: next :: rest, _, depth, mayEnd, before, outer => by
    have hitem := (reads_newLine (depth + 1) _).append
      (reads_pretty item (depth + 1) mayEnd (.list before :: outer))
    have hcomma := spells_comma (.afterValue item (.list before :: outer)) _ rfl
    have hrest := reads_prettyItems (next :: rest) (by simp) depth false (item :: before) outer
    simpa [prettyItems] using (hitem.append hcomma).append hrest

/-- The members of an object after the members `before`, and the end of the object. -/
theorem reads_prettyMembers : ∀ (members : List (String × Json)), members ≠ [] →
    ∀ (depth : Nat) (mayEnd : Bool) (before : List (String × Json)) (outer : List Frame),
    Reads (prettyMembers (depth + 1) members ++ newLine depth ++ "\x7d").toList
      (.beforeName mayEnd before outer)
      (.afterValue (.object (before.reverse ++ members)) outer)
  | [], h, _, _, _, _ => absurd rfl h
  | [(name, value)], _, depth, mayEnd, before, outer => by
    have hmember := reads_member
      (reads_pretty value (depth + 1) false (.object before name :: outer)) mayEnd
    have hend := (reads_newLine depth _).append (spells_closeObject
      (.afterValue value (.object before name :: outer)) _ rfl)
    simpa [prettyMembers] using hmember.append hend
  | (name, value) :: next :: rest, _, depth, mayEnd, before, outer => by
    have hmember := reads_member
      (reads_pretty value (depth + 1) false (.object before name :: outer)) mayEnd
    have hcomma := spells_comma (.afterValue value (.object before name :: outer)) _ rfl
    have hrest := reads_prettyMembers (next :: rest) (by simp) depth false
      ((name, value) :: before) outer
    simpa [prettyMembers] using (hmember.append hcomma).append hrest

end

/-- **Round trip.** A text that is written in lines is read as the value that was
    written. -/
theorem read?_pretty (value : Json) : read? (value.pretty 0) = some value := by
  have hrun : (value.pretty 0).toList.foldlM Reader.step ⟨.between, .beforeValue false []⟩ =
      some ⟨.between, .afterValue value []⟩ := reads_pretty value 0 false []
  rw [read?, hrun]
  rfl

theorem pretty_injective : Function.Injective (pretty 0) := by
  intro first second h
  have hread := read?_pretty first
  rw [h, read?_pretty second] at hread
  exact (Option.some.inj hread).symm

/-- The reader also takes escapes that are never written, and members of one name. -/
example : read? "\x7b\"\\u00e9\\/\" : [\"\\ud83d\\uDE00\",true,\t[ ]],\"a\":null,\"a\":\"\"\x7d " =
    some (.object [("é/", .list [.text "😀", .bool true, .list []]), ("a", .null), ("a", .text "")]) :=
  rfl

end BillOfMaterials.Json
