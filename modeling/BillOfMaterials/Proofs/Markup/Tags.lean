import BillOfMaterials.Markup.Node
import BillOfMaterials.Proofs.Text.Words

/-! # Reading texts and tags

    The parts of a reader of markup.  It knows nothing of how reports are
    written.

    * `decode` replaces entities; in front of anything it undoes `escape`
      (`decode_escape_append`).
    * `tag?` reads what stands between angle brackets; a written tag is read back
      whatever the values of its attributes (`tag?_tagText`).
    * An escaped text and a written tag hold no angle bracket of their own
      (`ne_of_mem_escape`, `ne_of_mem_tagText`). -/

namespace BillOfMaterials.Markup

open Text

/-! ## Entities -/

/-- The character that an entity stands for. -/
def entity? : List Char → Option Char
  | ['a', 'm', 'p'] => some '&'
  | ['l', 't'] => some '<'
  | ['g', 't'] => some '>'
  | ['q', 'u', 'o', 't'] => some '"'
  | ['#', '3', '9'] => some '\''
  | _ => none

/-- A text with its entities replaced.  The name is what has been read of one, if any;
    an `&` that begins none has no reading. -/
def decode : Option (List Char) → List Char → Option (List Char)
  | none, [] => some []
  | some _, [] => none
  | none, c :: rest => if c = '&' then decode (some []) rest else (decode none rest).map (c :: ·)
  | some name, c :: rest =>
    if c = ';' then do
      let d ← entity? name
      (decode none rest).map (d :: ·)
    else decode (some (name ++ [c])) rest

theorem decode_escapeChar_append (c : Char) (rest : List Char) :
    decode none (escapeChar c ++ rest) = (decode none rest).map (c :: ·) := by
  unfold escapeChar
  split
  case h_6 hamp _ _ _ _ =>
    rw [List.singleton_append, decode, if_neg hamp]
  all_goals simp [decode, entity?]

theorem decode_escape_append (text rest : List Char) :
    decode none (text.flatMap escapeChar ++ rest) = (decode none rest).map (text ++ ·) := by
  induction text with
  | nil => simp
  | cons c text ih =>
    rw [List.flatMap_cons, List.append_assoc, decode_escapeChar_append, ih, Option.map_map]
    rfl

theorem decode_escape (text : List Char) : decode none (text.flatMap escapeChar) = some text := by
  simpa [decode] using decode_escape_append text []

theorem all_escapeChar (c : Char) :
    (escapeChar c).all fun d => d != '<' && d != '>' && d != '"' := by
  unfold escapeChar
  split
  case h_6 _ hlt hgt hquot _ => simpa [and_assoc] using And.intro hlt (And.intro hgt hquot)
  all_goals rfl

/-- No bracket and no quote is left in an escaped text. -/
theorem ne_of_mem_escape {text : List Char} {c : Char} (h : c ∈ text.flatMap escapeChar) :
    c ≠ '<' ∧ c ≠ '>' ∧ c ≠ '"' := by
  obtain ⟨d, -, hc⟩ := List.mem_flatMap.1 h
  simpa [and_assoc] using List.all_eq_true.1 (all_escapeChar d) c hc

/-! ## Tags -/

def isNameStart (c : Char) : Bool := c.isAlpha || c == ':' || c == '_'

def isNameChar (c : Char) : Bool := isNameStart c || c.isDigit || c == '-' || c == '.'

/-- The text is the name of an element or an attribute. -/
def isName : List Char → Bool
  | [] => false
  | first :: rest => isNameStart first && rest.all isNameChar

theorem isNameChar_of_isName {name : List Char} (h : isName name) : ∀ c ∈ name, isNameChar c := by
  cases name with
  | nil => simp
  | cons first rest =>
    simp only [isName, Bool.and_eq_true, List.all_eq_true] at h
    intro c hc
    rcases List.mem_cons.1 hc with rfl | hc
    · simp [isNameChar, h.1]
    · exact h.2 c hc

/-- A character that is in no name is not in this one. -/
theorem ne_of_isName {name : List Char} (h : isName name) {c d : Char} (hc : c ∈ name)
    (hd : isNameChar d = false) : c ≠ d := by
  rintro rfl
  rw [isNameChar_of_isName h c hc] at hd
  cases hd

/-- What stands between angle brackets. -/
inductive Tag where
  | opening (name : String) (attributes : List Attribute)
  | closing (name : String)
  /-- The tag of an element that ends itself. -/
  | alone (name : String) (attributes : List Attribute)
  /-- A tag that is of no element. -/
  | declaration (text : String)
  deriving DecidableEq, Repr

/-- The name of an attribute, from what stands in front of its value. -/
def attributeName? : List Char → Option String
  | ' ' :: key =>
    match cutAt ['='] key with
    | some (name, []) => if isName name then some (String.ofList name) else none
    | _ => none
  | _ => none

/-- The attributes in the text after a tag's name, which is cut at its quotes, and
    what follows the last of them. -/
def attributes? : List (List Char) → Option (List Attribute × List Char)
  | [] => none
  | [rest] => some ([], rest)
  | key :: value :: more => do
    let name ← attributeName? key
    let value ← decode none value
    let (attributes, rest) ← attributes? more
    some ((name, String.ofList value) :: attributes, rest)

/-- The tag of an element that begins or stands alone. -/
def elementTag? (inside : List Char) : Option Tag :=
  let name := inside.takeWhile isNameChar
  if isName name then
    match attributes? (pieces (· == '"') (inside.dropWhile isNameChar)) with
    | some (attributes, []) => some (.opening (String.ofList name) attributes)
    | some (attributes, ['/']) => some (.alone (String.ofList name) attributes)
    | _ => none
  else none

/-- The tag that a text between angle brackets is. -/
def tag? (inside : List Char) : Option Tag :=
  match inside with
  | '/' :: name => if isName name then some (.closing (String.ofList name)) else none
  | '?' :: _ | '!' :: _ => some (.declaration (String.ofList inside))
  | _ => elementTag? inside

/-- The attributes have names. -/
def areNamed (attributes : List Attribute) : Bool :=
  attributes.all fun (name, _) => isName name.toList

theorem attributeName?_eq {name : String} (h : isName name.toList) :
    attributeName? (' ' :: (name.toList ++ ['='])) = some name := by
  have hcut : cutAt ['='] (name.toList ++ ['=']) = some (name.toList, []) :=
    cutAt_append (fun c hc => ne_of_isName h hc (by decide)) []
  simp [attributeName?, hcut, h]

/-- The attributes of a tag as they are written. -/
def attributesText (attributes : List Attribute) : List Char :=
  attributes.flatMap fun (name, value) =>
    ' ' :: (name.toList ++ ['=']) ++ '"' :: (value.toList.flatMap escapeChar ++ ['"'])

theorem toList_tagText (name : String) (attributes : List Attribute) :
    (tagText name attributes).toList = name.toList ++ attributesText attributes := by
  simp [tagText, attributesText, String.toList_join, List.flatMap_map]

/-- What stands in front of an attribute's value holds no quote. -/
theorem pieces_key {name : List Char} (h : isName name) :
    pieces (· == '"') (' ' :: (name ++ ['='])) = [' ' :: (name ++ ['='])] := by
  apply pieces_of_no_sep
  intro c hc
  simp only [List.mem_cons, List.mem_append, List.not_mem_nil, or_false] at hc
  rcases hc with rfl | hc | rfl
  · decide
  · exact beq_false_of_ne (ne_of_isName h hc (by decide))
  · decide

/-- Nor does the value. -/
theorem pieces_escape (text : List Char) :
    pieces (· == '"') (text.flatMap escapeChar) = [text.flatMap escapeChar] :=
  pieces_of_no_sep fun _ hc => beq_false_of_ne (ne_of_mem_escape hc).2.2

theorem attributes?_attributesText {attributes : List Attribute} (h : areNamed attributes)
    {rest : List Char} (hrest : ∀ c ∈ rest, c ≠ '"') :
    attributes? (pieces (· == '"') (attributesText attributes ++ rest)) =
      some (attributes, rest) := by
  induction attributes with
  | nil =>
    have hpiece : pieces (· == '"') rest = [rest] :=
      pieces_of_no_sep fun c hc => beq_false_of_ne (hrest c hc)
    simp [attributesText, hpiece, attributes?]
  | cons first attributes ih =>
    obtain ⟨name, value⟩ := first
    simp only [areNamed, List.all_cons, Bool.and_eq_true] at h
    -- The two quotes around the value cut the text: a key, the value, and what follows.
    have hsplit : attributesText ((name, value) :: attributes) ++ rest =
        ' ' :: (name.toList ++ ['=']) ++ '"' :: (value.toList.flatMap escapeChar ++
          '"' :: (attributesText attributes ++ rest)) := by
      simp [attributesText]
    rw [hsplit, pieces_append_sep rfl, pieces_append_sep rfl, pieces_key h.1, pieces_escape]
    simp [attributes?, attributeName?_eq h.1, decode_escape, ih h.2]

/-- After the name of a tag comes a character of no name, if any. -/
theorem elementTag?_append {name tail : List Char} (hname : isName name)
    (htail : ∀ c ∈ tail.head?, isNameChar c = false) :
    elementTag? (name ++ tail) =
      match attributes? (pieces (· == '"') tail) with
      | some (attributes, []) => some (.opening (String.ofList name) attributes)
      | some (attributes, ['/']) => some (.alone (String.ofList name) attributes)
      | _ => none := by
  have hnone : tail.takeWhile isNameChar = [] ∧ tail.dropWhile isNameChar = tail := by
    cases tail with
    | nil => exact ⟨rfl, rfl⟩
    | cons c tail =>
      have hc : isNameChar c = false := htail c rfl
      simp [hc]
  have htake : (name ++ tail).takeWhile isNameChar = name := by
    rw [List.takeWhile_append_of_pos (isNameChar_of_isName hname), hnone.1, List.append_nil]
  have hdrop : (name ++ tail).dropWhile isNameChar = tail := by
    rw [List.dropWhile_append_of_pos (isNameChar_of_isName hname), hnone.2]
  simp only [elementTag?, htake, hdrop, if_pos hname]

/-- A text that begins with a name is no end tag and no declaration. -/
theorem tag?_append {name : List Char} (hname : isName name) (tail : List Char) :
    tag? (name ++ tail) = elementTag? (name ++ tail) := by
  cases name with
  | nil => cases hname
  | cons first name =>
    have hfirst : isNameStart first := by
      simp only [isName, Bool.and_eq_true] at hname
      exact hname.1
    unfold tag?
    split
    case h_4 => rfl
    all_goals
      next heq =>
        cases heq
        cases hfirst

theorem head?_attributesText_append {attributes : List Attribute} {tail : List Char}
    (htail : ∀ c ∈ tail.head?, isNameChar c = false) :
    ∀ c ∈ (attributesText attributes ++ tail).head?, isNameChar c = false := by
  cases attributes with
  | nil => exact htail
  | cons first attributes =>
    intro c hc
    obtain rfl : c = ' ' := by simpa [attributesText] using hc.symm
    rfl

/-- A written tag is read back. -/
theorem tag?_tagText {name : String} {attributes : List Attribute} (hname : isName name.toList)
    (h : areNamed attributes) :
    tag? (tagText name attributes).toList = some (.opening name attributes) ∧
      tag? ((tagText name attributes).toList ++ ['/']) = some (.alone name attributes) := by
  rw [toList_tagText, List.append_assoc, tag?_append hname, tag?_append hname]
  constructor
  · rw [← List.append_nil (attributesText attributes),
      elementTag?_append hname (head?_attributesText_append (by simp)),
      attributes?_attributesText h (by simp), String.ofList_toList]
  · have hend : ∀ c ∈ ['/'].head?, isNameChar c = false := by
      intro c hc
      rw [← Option.some.inj hc]
      rfl
    have hquote : ∀ c ∈ ['/'], c ≠ '"' := by
      intro c hc
      rw [List.mem_singleton.1 hc]
      decide
    rw [elementTag?_append hname (head?_attributesText_append hend),
      attributes?_attributesText h hquote, String.ofList_toList]
    rfl

theorem tag?_closing {name : String} (h : isName name.toList) :
    tag? ('/' :: name.toList) = some (.closing name) := by
  simp [tag?, h]

theorem ne_of_mem_attributesText {attributes : List Attribute} (h : areNamed attributes) {c : Char}
    (hc : c ∈ attributesText attributes) : c ≠ '<' ∧ c ≠ '>' := by
  obtain ⟨⟨name, value⟩, hmem, hc⟩ := List.mem_flatMap.1 hc
  have hname : isName name.toList := List.all_eq_true.1 h (name, value) hmem
  simp only [List.mem_cons, List.mem_append, List.not_mem_nil, or_false] at hc
  rcases hc with (rfl | hc | rfl) | rfl | hc | rfl
  · decide
  · exact ⟨ne_of_isName hname hc (by decide), ne_of_isName hname hc (by decide)⟩
  · decide
  · decide
  · exact ⟨(ne_of_mem_escape hc).1, (ne_of_mem_escape hc).2.1⟩
  · decide

theorem ne_of_mem_tagText {name : String} {attributes : List Attribute}
    (hname : isName name.toList) (h : areNamed attributes) {c : Char}
    (hc : c ∈ (tagText name attributes).toList) : c ≠ '<' ∧ c ≠ '>' := by
  rw [toList_tagText] at hc
  rcases List.mem_append.1 hc with hc | hc
  · exact ⟨ne_of_isName hname hc (by decide), ne_of_isName hname hc (by decide)⟩
  · exact ne_of_mem_attributesText h hc

end BillOfMaterials.Markup
