import BillOfMaterials.Proofs.Markup.Tags
import BillOfMaterials.Proofs.Text.Case
import BillOfMaterials.Text.Hexadecimal

/-! # Well-formed XML

    The productions of XML 1.0 that reports are written with, under the names that they
    have there.  Reports take less freedom than the standard gives: names are in ASCII,
    one space stands in front of an attribute, `>` is never left as it is, and there are
    no comments, sections or instructions.

    * `IsXmlChar` is the production `Char`; `IsXmlText` are texts of such characters.
    * `IsReference`, `IsAttributes`, `IsElement` and `IsContent` are productions, and
      `IsDocument` is a whole text; in these `<` and `&` stand in tags and in references
      only, and tags nest.
    * `Node.Proper` are the nodes with proper names; `Node.Proper.isWritten` says that
      they are written as elements, whatever their texts are.
    * `Node.Proper.isXmlText_render_iff`: what is written of them is in `Char` if and
      only if their texts are. -/

namespace BillOfMaterials.Markup

open Text

/-! ## Characters -/

/-- The production `Char`. -/
def IsXmlChar (c : Char) : Prop :=
  c = '\t' ∨ c = '\n' ∨ c = '\r' ∨ (0x20 ≤ c.toNat ∧ c.toNat ≤ 0xD7FF) ∨
    (0xE000 ≤ c.toNat ∧ c.toNat ≤ 0xFFFD) ∨ (0x10000 ≤ c.toNat ∧ c.toNat ≤ 0x10FFFF)

instance (c : Char) : Decidable (IsXmlChar c) :=
  inferInstanceAs (Decidable (_ ∨ _ ∨ _ ∨ _ ∨ _ ∨ _))

/-- Every character is allowed. -/
def IsXmlText (s : List Char) : Prop := ∀ c ∈ s, IsXmlChar c

instance (s : List Char) : Decidable (IsXmlText s) := List.decidableBAll IsXmlChar s

@[simp] theorem isXmlText_nil : IsXmlText [] := by simp [IsXmlText]

@[simp] theorem isXmlText_cons (c : Char) (s : List Char) :
    IsXmlText (c :: s) ↔ IsXmlChar c ∧ IsXmlText s := by
  simp [IsXmlText]

@[simp] theorem isXmlText_append (a b : List Char) :
    IsXmlText (a ++ b) ↔ IsXmlText a ∧ IsXmlText b := by
  simp only [IsXmlText, List.mem_append]
  constructor
  · intro h
    exact ⟨fun c hc => h c (.inl hc), fun c hc => h c (.inr hc)⟩
  · rintro ⟨ha, hb⟩ c (hc | hc)
    · exact ha c hc
    · exact hb c hc

theorem isXmlText_flatMap {α : Type} {f : α → List Char} (items : List α) :
    IsXmlText (items.flatMap f) ↔ ∀ item ∈ items, IsXmlText (f item) := by
  induction items with
  | nil => simp
  | cons item items ih => simp [ih]

/-- Texts of allowed characters alone. -/
def AreXmlTexts (texts : List String) : Prop := ∀ text ∈ texts, IsXmlText text.toList

@[simp] theorem areXmlTexts_nil : AreXmlTexts [] := by simp [AreXmlTexts]

@[simp] theorem areXmlTexts_cons (text : String) (texts : List String) :
    AreXmlTexts (text :: texts) ↔ IsXmlText text.toList ∧ AreXmlTexts texts := by
  simp [AreXmlTexts]

@[simp] theorem areXmlTexts_append (first second : List String) :
    AreXmlTexts (first ++ second) ↔ AreXmlTexts first ∧ AreXmlTexts second := by
  simp [AreXmlTexts, or_imp, forall_and]

@[simp] theorem areXmlTexts_flatMap {α : Type} {f : α → List String} (items : List α) :
    AreXmlTexts (items.flatMap f) ↔ ∀ item ∈ items, AreXmlTexts (f item) := by
  induction items with
  | nil => simp
  | cons item items ih => simp [ih]

/-- Printable ASCII characters are allowed. -/
theorem isXmlChar_of_ascii {c : Char} (hlow : 0x20 ≤ c.toNat) (hhigh : c.toNat ≤ 0x7E) :
    IsXmlChar c := by
  refine .inr (.inr (.inr (.inl ⟨hlow, ?_⟩)))
  omega

/-! ## Productions -/

/-- The value of decimal digits. -/
def decimalValue (digits : List Char) : Nat :=
  digits.foldl (fun n digit => 10 * n + (digit.toNat - '0'.toNat)) 0

/-- The production `Reference`, for the entities that need no declaration and for
    characters that are allowed. -/
inductive IsReference : List Char → Prop where
  | entity {name : String} : name ∈ ["amp", "lt", "gt", "quot", "apos"] →
      IsReference ('&' :: (name.toList ++ [';']))
  | decimal {digits : List Char} {c : Char} : digits ≠ [] → (∀ d ∈ digits, d.isDigit) →
      decimalValue digits = c.toNat → IsXmlChar c → IsReference ('&' :: '#' :: (digits ++ [';']))
  | hexadecimal {digits : List Char} {c : Char} : digits ≠ [] → codePoint? digits = some c →
      IsXmlChar c → IsReference ('&' :: '#' :: 'x' :: (digits ++ [';']))

/-- The production `AttValue`, between its quotes. -/
inductive IsValue : List Char → Prop where
  | nil : IsValue []
  | char {c : Char} {rest : List Char} : c ≠ '<' → c ≠ '&' → c ≠ '"' → IsValue rest →
      IsValue (c :: rest)
  | reference {reference rest : List Char} : IsReference reference → IsValue rest →
      IsValue (reference ++ rest)

/-- Attributes with the production `Attribute`, and the names of these attributes. -/
inductive IsAttributes : List (List Char) → List Char → Prop where
  | nil : IsAttributes [] []
  | cons {name value rest : List Char} {names : List (List Char)} : isName name → IsValue value →
      IsAttributes names rest →
      IsAttributes (name :: names) (' ' :: (name ++ '=' :: '"' :: (value ++ '"' :: rest)))

/-- What a start tag of this name holds.  No two attributes have one name. -/
def IsTag (name tag : List Char) : Prop :=
  isName name ∧ ∃ names attributes, IsAttributes names attributes ∧ names.Nodup ∧
    tag = name ++ attributes

mutual

/-- The production `element`. -/
inductive IsElement : List Char → Prop where
  | empty {name tag : List Char} : IsTag name tag → IsElement ('<' :: (tag ++ ['/', '>']))
  | tagged {name tag content : List Char} : IsTag name tag → IsContent content →
      IsElement ('<' :: (tag ++ '>' :: (content ++ '<' :: '/' :: (name ++ ['>']))))

/-- The production `content`. -/
inductive IsContent : List Char → Prop where
  | nil : IsContent []
  | char {c : Char} {rest : List Char} : c ≠ '<' → c ≠ '&' → c ≠ '>' → IsContent rest →
      IsContent (c :: rest)
  | reference {reference rest : List Char} : IsReference reference → IsContent rest →
      IsContent (reference ++ rest)
  | element {element rest : List Char} : IsElement element → IsContent rest →
      IsContent (element ++ rest)

end

/-- The production `S`, or nothing. -/
def isSpace (s : List Char) : Bool := s.all fun c => c = ' ' || c = '\t' || c = '\n' || c = '\r'

/-- The production `document`: a declaration and one element, with space around it. -/
inductive IsDocument : List Char → Prop where
  | declared {before element after : List Char} : isSpace before → IsElement element →
      isSpace after →
      IsDocument ("<?xml version=\"1.0\" encoding=\"utf-8\"?>".toList ++ before ++ element ++ after)

/-- A text that is well-formed XML. -/
structure WellFormed (text : String) : Prop where
  isDocument : IsDocument text.toList
  isXmlText : IsXmlText text.toList

theorem wellFormed_iff {text : String} (h : IsDocument text.toList) :
    WellFormed text ↔ IsXmlText text.toList :=
  ⟨fun hwell => hwell.isXmlText, fun htext => ⟨h, htext⟩⟩

/-! ## Escaped texts -/

/-- A character is escaped by a reference, or it needs none. -/
theorem escapeChar_cases (c : Char) : IsReference (escapeChar c) ∨
    escapeChar c = [c] ∧ c ≠ '<' ∧ c ≠ '&' ∧ c ≠ '>' ∧ c ≠ '"' := by
  unfold escapeChar
  split
  · exact .inl (@IsReference.entity "amp" (by decide))
  · exact .inl (@IsReference.entity "lt" (by decide))
  · exact .inl (@IsReference.entity "gt" (by decide))
  · exact .inl (@IsReference.entity "quot" (by decide))
  · exact .inl (@IsReference.decimal ['3', '9'] '\'' (by decide) (by simp) (by decide) (by decide))
  · next hamp hlt hgt hquot _ => exact .inr ⟨rfl, hlt, hamp, hgt, hquot⟩

theorem isValue_escape (text : List Char) : IsValue (text.flatMap escapeChar) := by
  induction text with
  | nil => exact .nil
  | cons c text ih =>
    rw [List.flatMap_cons]
    rcases escapeChar_cases c with hreference | ⟨hplain, hlt, hamp, -, hquot⟩
    · exact .reference hreference ih
    · rw [hplain]
      exact .char hlt hamp hquot ih

theorem isContent_escape_append (text : List Char) {rest : List Char} (h : IsContent rest) :
    IsContent (text.flatMap escapeChar ++ rest) := by
  induction text with
  | nil => exact h
  | cons c text ih =>
    rw [List.flatMap_cons, List.append_assoc]
    rcases escapeChar_cases c with hreference | ⟨hplain, hlt, hamp, hgt, -⟩
    · exact .reference hreference ih
    · rw [hplain]
      exact .char hlt hamp hgt ih

/-- Escaping adds only allowed characters and leaves out no other. -/
theorem isXmlText_escapeChar (c : Char) : IsXmlText (escapeChar c) ↔ IsXmlChar c := by
  unfold escapeChar
  split
  case h_6 => simp
  all_goals decide

theorem isXmlText_escape (text : List Char) :
    IsXmlText (text.flatMap escapeChar) ↔ IsXmlText text := by
  simp only [isXmlText_flatMap, isXmlText_escapeChar]
  rfl

/-! ## Tags -/

/-- The names of attributes are proper, and no two are the same. -/
def ProperAttributes (attributes : List Attribute) : Prop :=
  areNamed attributes ∧ (attributes.map Prod.fst).Nodup

theorem isAttributes_attributesText {attributes : List Attribute} (h : areNamed attributes) :
    IsAttributes (attributes.map fun (name, _) => name.toList) (attributesText attributes) := by
  induction attributes with
  | nil => exact .nil
  | cons first attributes ih =>
    obtain ⟨name, value⟩ := first
    simp only [areNamed, List.all_cons, Bool.and_eq_true] at h
    have hcons := IsAttributes.cons h.1 (isValue_escape value.toList) (ih h.2)
    simpa [attributesText] using hcons

theorem isTag_tagText {name : String} {attributes : List Attribute} (hname : isName name.toList)
    (h : ProperAttributes attributes) : IsTag name.toList (tagText name attributes).toList := by
  refine ⟨hname, _, _, isAttributes_attributesText h.1, ?_, toList_tagText name attributes⟩
  have hnames : (attributes.map fun (name, _) => name.toList) =
      (attributes.map Prod.fst).map String.toList := by
    rw [List.map_map]
    rfl
  rw [hnames]
  refine List.Pairwise.map String.toList ?_ h.2
  intro first second hne heq
  exact hne (String.toList_inj.1 heq)

theorem isElement_tagged {name : String} {attributes : List Attribute} {content : List Char}
    (hname : isName name.toList) (h : ProperAttributes attributes) (hcontent : IsContent content) :
    IsElement ((startTag name attributes).toList ++ (content ++ (endTag name).toList)) := by
  simpa [startTag, endTag] using IsElement.tagged (isTag_tagText hname h) hcontent

/-! ## Nodes -/

/-- Nodes of elements with text, references to resources, and blocks of nodes, all with
    proper names. -/
inductive Node.Proper : Node → Prop where
  | text {name content : String} {attributes : List Attribute} : isName name.toList →
      ProperAttributes attributes → Proper (.text name content attributes)
  | resource {name uri : String} : isName name.toList → Proper (.resource name uri)
  | block {name : String} {attributes : List Attribute} {contents : List Node} :
      isName name.toList → ProperAttributes attributes → (∀ node ∈ contents, Proper node) →
      Proper (.block name attributes contents)

theorem properAttributes_nil : ProperAttributes [] := ⟨rfl, List.nodup_nil⟩

theorem properAttributes_singleton {name : String} (hname : isName name.toList) (value : String) :
    ProperAttributes [(name, value)] := ⟨by simpa [areNamed] using hname, by simp⟩

/-- An element with text and no attributes. -/
theorem Node.Proper.plain {name : String} (hname : isName name.toList) (content : String) :
    (Node.text name content).Proper := .text hname properAttributes_nil

/-- A block around one node. -/
theorem Node.Proper.single {name : String} {node : Node} (hname : isName name.toList)
    (h : node.Proper) : (Node.block name [] [node]).Proper := by
  apply Node.Proper.block hname properAttributes_nil
  simpa using h

/-- A block of one node for each item. -/
theorem Node.Proper.row {α : Type} {name : String} (hname : isName name.toList) {node : α → Node}
    (h : ∀ item, (node item).Proper) (items : List α) :
    (Node.block name [] (items.map node)).Proper := by
  apply Node.Proper.block hname properAttributes_nil
  rw [List.forall_mem_map]
  exact fun item _ => h item

theorem isContent_space_append {space rest : List Char} (hspace : isSpace space)
    (h : IsContent rest) : IsContent (space ++ rest) := by
  induction space with
  | nil => exact h
  | cons c space ih =>
    rw [isSpace, List.all_cons, Bool.and_eq_true] at hspace
    have hcontent := ih hspace.2
    simp only [Bool.or_eq_true, decide_eq_true_eq] at hspace
    obtain ⟨((rfl | rfl) | rfl) | rfl, -⟩ := hspace
    all_goals exact .char (by decide) (by decide) (by decide) hcontent

theorem isContent_lineBreak {rest : List Char} (h : IsContent rest) : IsContent ('\n' :: rest) :=
  .char (by decide) (by decide) (by decide) h

theorem isSpace_indent (depth : Nat) : isSpace (indent depth).toList := by
  simp [isSpace, indent]

theorem toList_line (depth : Nat) (text : String) :
    (line depth text).toList = (indent depth).toList ++ (text.toList ++ ['\n']) := by
  simp [line]

theorem toList_renderAll (depth : Nat) (contents : List Node) :
    (Node.renderAll depth contents).toList =
      contents.flatMap fun node => (node.render depth).toList := by
  induction contents with
  | nil => simp [Node.renderAll]
  | cons node contents ih => simp [Node.renderAll, ih]

/-- The node is written as one element on lines of its own. -/
def Node.IsWritten (depth : Nat) (node : Node) : Prop :=
  ∃ element, IsElement element ∧
    (node.render depth).toList = (indent depth).toList ++ (element ++ ['\n'])

theorem isContent_nodes_append {depth : Nat} {contents : List Node}
    (h : ∀ node ∈ contents, node.IsWritten depth) {rest : List Char} (hrest : IsContent rest) :
    IsContent ((Node.renderAll depth contents).toList ++ rest) := by
  induction contents with
  | nil => simpa [Node.renderAll] using hrest
  | cons node contents ih =>
    obtain ⟨element, helement, hrender⟩ := h node List.mem_cons_self
    have hcontents := ih fun node hnode => h node (List.mem_cons_of_mem _ hnode)
    have hline := isContent_space_append (isSpace_indent depth)
      (.element helement (isContent_lineBreak hcontents))
    simpa [Node.renderAll, hrender] using hline

/-- **Nesting.** A proper node is written as an element, whatever its texts are. -/
theorem Node.Proper.isWritten {node : Node} (h : node.Proper) (depth : Nat) :
    node.IsWritten depth := by
  induction h generalizing depth with
  | @text name content attributes hname hattributes =>
    have hcontent := isContent_escape_append content.toList .nil
    rw [List.append_nil] at hcontent
    refine ⟨_, isElement_tagged hname hattributes hcontent, ?_⟩
    rw [Node.text, Node.render, toList_line]
    simp [Inline.render, Inline.renderAll]
  | @resource name uri hname =>
    have htag := isTag_tagText hname (@properAttributes_singleton resourceAttribute rfl uri)
    refine ⟨_, .empty htag, ?_⟩
    rw [Node.resource, Node.render, toList_line]
    simp [Inline.render]
  | @block name attributes contents hname hattributes _ ih =>
    -- Inside are the end of the start tag's line, the nodes, and the indentation of
    -- the end tag.
    have hspace := isContent_space_append (isSpace_indent depth) .nil
    have hnodes := isContent_nodes_append (fun node hnode => ih node hnode (depth + 1)) hspace
    have hcontent := isContent_lineBreak hnodes
    refine ⟨_, isElement_tagged hname hattributes hcontent, ?_⟩
    rw [Node.render, String.toList_append, String.toList_append, toList_line, toList_line]
    simp

/-- A declaration and a proper node make a document. -/
theorem isDocument_of_proper {node : Node} (h : node.Proper) :
    IsDocument (line 0 "<?xml version=\"1.0\" encoding=\"utf-8\"?>" ++ node.render 0).toList := by
  obtain ⟨element, helement, hrender⟩ := h.isWritten 0
  have hnone : (indent 0).toList = [] := by decide
  have hdocument := @IsDocument.declared ['\n'] element ['\n'] rfl helement rfl
  rw [String.toList_append, toList_line, hrender, hnone]
  simpa using hdocument

/-! ## Texts -/

mutual

/-- The texts in a part of a line: contents and values of attributes. -/
def Inline.texts : Inline → List String
  | .text content => [content]
  | .void _ attributes | .empty _ attributes => attributes.map Prod.snd
  | .element _ attributes contents => attributes.map Prod.snd ++ Inline.textsAll contents

def Inline.textsAll : List Inline → List String
  | [] => []
  | first :: rest => Inline.texts first ++ Inline.textsAll rest

end

mutual

/-- The texts in a node. -/
def Node.texts : Node → List String
  | .line contents => contents.texts
  | .block _ attributes contents => attributes.map Prod.snd ++ Node.textsAll contents

def Node.textsAll : List Node → List String
  | [] => []
  | first :: rest => Node.texts first ++ Node.textsAll rest

end

theorem Node.textsAll_eq (contents : List Node) :
    Node.textsAll contents = contents.flatMap Node.texts := by
  induction contents with
  | nil => rfl
  | cons first rest ih => rw [Node.textsAll, ih, List.flatMap_cons]

@[simp] theorem Node.texts_text (name content : String) (attributes : List Attribute) :
    (Node.text name content attributes).texts = attributes.map Prod.snd ++ [content] := by
  simp [Node.text, Node.texts, Inline.texts, Inline.textsAll]

@[simp] theorem Node.texts_resource (name uri : String) :
    (Node.resource name uri).texts = [uri] := by
  simp [Node.resource, Node.texts, Inline.texts]

@[simp] theorem Node.texts_block (name : String) (attributes : List Attribute)
    (contents : List Node) : (Node.block name attributes contents).texts =
      attributes.map Prod.snd ++ contents.flatMap Node.texts := by
  rw [Node.texts, Node.textsAll_eq]

theorem isXmlChar_of_isAlphanum {c : Char} (h : c.isAlphanum) : IsXmlChar c := by
  have hbounds := Text.bounds_of_isAlphanum h
  exact isXmlChar_of_ascii (by omega) (by omega)

theorem isXmlChar_of_isNameChar {c : Char} (h : isNameChar c) : IsXmlChar c := by
  simp only [isNameChar, isNameStart, Bool.or_eq_true, beq_iff_eq] at h
  rcases h with ((((hletter | rfl) | rfl) | hdigit) | rfl) | rfl
  · exact isXmlChar_of_isAlphanum (by simp [Char.isAlphanum, hletter])
  · decide
  · decide
  · exact isXmlChar_of_isAlphanum (by simp [Char.isAlphanum, hdigit])
  · decide
  · decide

theorem isXmlText_of_isName {name : List Char} (h : isName name) : IsXmlText name :=
  fun c hc => isXmlChar_of_isNameChar (isNameChar_of_isName h c hc)

theorem isXmlText_indent (depth : Nat) : IsXmlText (indent depth).toList := by
  intro c hc
  rw [indent, String.toList_ofList] at hc
  rw [List.eq_of_mem_replicate hc]
  decide

theorem isXmlText_line (depth : Nat) (text : String) :
    IsXmlText (line depth text).toList ↔ IsXmlText text.toList := by
  have hbreak : IsXmlChar '\n' := by decide
  simp [toList_line, isXmlText_indent, hbreak]

/-- In a tag, values alone can hold other characters. -/
theorem isXmlText_tagText {name : String} {attributes : List Attribute} (hname : isName name.toList)
    (h : areNamed attributes) : IsXmlText (tagText name attributes).toList ↔
      AreXmlTexts (attributes.map Prod.snd) := by
  have hmarks : IsXmlChar ' ' ∧ IsXmlChar '=' ∧ IsXmlChar '"' := by decide
  rw [toList_tagText, isXmlText_append, and_iff_right (isXmlText_of_isName hname), attributesText,
    isXmlText_flatMap, AreXmlTexts, List.forall_mem_map]
  refine forall₂_congr ?_
  rintro ⟨own, value⟩ hmem
  have hown : isName own.toList := List.all_eq_true.1 h _ hmem
  simp [isXmlText_of_isName hown, isXmlText_escape, hmarks]

theorem isXmlText_startTag {name : String} {attributes : List Attribute}
    (hname : isName name.toList) (h : areNamed attributes) :
    IsXmlText (startTag name attributes).toList ↔ AreXmlTexts (attributes.map Prod.snd) := by
  have hbrackets : IsXmlChar '<' ∧ IsXmlChar '>' := by decide
  rw [← isXmlText_tagText hname h]
  simp [startTag, hbrackets]

theorem isXmlText_endTag {name : String} (hname : isName name.toList) :
    IsXmlText (endTag name).toList := by
  have hbrackets : IsXmlChar '<' ∧ IsXmlChar '/' ∧ IsXmlChar '>' := by decide
  simp [endTag, isXmlText_of_isName hname, hbrackets]

/-- **Characters.** What is written of a proper node is in `Char` if and only if its
    texts are. -/
theorem Node.Proper.isXmlText_render_iff {node : Node} (h : node.Proper) (depth : Nat) :
    IsXmlText (node.render depth).toList ↔ AreXmlTexts node.texts := by
  induction h generalizing depth with
  | @text name content attributes hname hattributes =>
    have hstart := isXmlText_startTag hname hattributes.1
    have hend := isXmlText_endTag hname
    rw [Node.text, Node.render, isXmlText_line, ← Node.text, Node.texts_text]
    simp [Inline.render, Inline.renderAll, isXmlText_escape, hstart, hend]
  | @resource name uri hname =>
    have hattribute : areNamed [(resourceAttribute, uri)] := rfl
    have htag := isXmlText_tagText hname hattribute
    have hbrackets : IsXmlChar '<' ∧ IsXmlChar '/' ∧ IsXmlChar '>' := by decide
    rw [Node.resource, Node.render, isXmlText_line, ← Node.resource, Node.texts_resource]
    simp [Inline.render, htag, hbrackets]
  | @block name attributes contents hname hattributes _ ih =>
    have hstart := isXmlText_startTag hname hattributes.1
    have hend := isXmlText_endTag hname
    have hcontents : IsXmlText (Node.renderAll (depth + 1) contents).toList ↔
        AreXmlTexts (contents.flatMap Node.texts) := by
      rw [toList_renderAll, isXmlText_flatMap, areXmlTexts_flatMap]
      exact forall₂_congr fun node hnode => ih node hnode (depth + 1)
    rw [Node.render, String.toList_append, String.toList_append, isXmlText_append, isXmlText_append,
      isXmlText_line, isXmlText_line, hstart, hcontents, Node.texts_block]
    simp [hend]

end BillOfMaterials.Markup
