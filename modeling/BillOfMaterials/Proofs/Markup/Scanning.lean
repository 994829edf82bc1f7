import Mathlib.Data.List.Basic
import BillOfMaterials.Proofs.Markup.Tags

/-! # Reading markup from front to back

    * `scan?` reads a text, then tags, each with the text after it.
    * `Node.scan` is what a node puts in front of such a passage.
    * `scan?_node_append`: a written node in front of any text is read as just
      that, so nothing in the node's own texts is taken for markup. -/

namespace BillOfMaterials.Markup

open Text

/-! ## Texts and tags -/

/-- Markup as it is read: a text, then tags, each with the text after it. -/
structure Passage where
  lead : String
  tags : List (Tag × String)
  deriving DecidableEq, Repr

namespace Passage

/-- A text in front. -/
def text (content : String) (passage : Passage) : Passage :=
  { passage with lead := content ++ passage.lead }

/-- A tag in front. -/
def tag (tag : Tag) (passage : Passage) : Passage :=
  ⟨"", (tag, passage.lead) :: passage.tags⟩

end Passage

/-- What stands between a `<` and the next: a tag and the text after it. -/
def segment? (segment : List Char) : Option (Tag × String) := do
  let (inside, after) ← cutAt ['>'] segment
  let tag ← tag? inside
  let text ← decode none after
  some (tag, String.ofList text)

/-- Reads markup. -/
def scan? (text : String) : Option Passage :=
  match pieces (· == '<') text.toList with
  | [] => none
  | lead :: segments => do
    let lead ← decode none lead
    let tags ← segments.mapM segment?
    some ⟨String.ofList lead, tags⟩

theorem scan?_eq_some {text : String} {passage : Passage} (h : scan? text = some passage) :
    ∃ lead segments, pieces (· == '<') text.toList = lead :: segments ∧
      decode none lead = some passage.lead.toList ∧ segments.mapM segment? = some passage.tags := by
  unfold scan? at h
  split at h
  · cases h
  · next lead segments hpieces =>
    obtain ⟨text, htext, h⟩ := Option.bind_eq_some_iff.1 h
    obtain ⟨tags, htags, h⟩ := Option.bind_eq_some_iff.1 h
    cases h
    exact ⟨lead, segments, hpieces, by rw [htext, String.toList_ofList], htags⟩

theorem scan?_of_pieces {text : String} {lead : List Char} {segments : List (List Char)}
    {passage : Passage} (hpieces : pieces (· == '<') text.toList = lead :: segments)
    (hlead : decode none lead = some passage.lead.toList)
    (htags : segments.mapM segment? = some passage.tags) : scan? text = some passage := by
  simp [scan?, hpieces, hlead, htags]

/-- A text in front. -/
theorem scan?_escape_append {rest : String} {passage : Passage} (h : scan? rest = some passage)
    (content : String) : scan? (escape content ++ rest) = some (passage.text content) := by
  obtain ⟨lead, segments, hpieces, hlead, htags⟩ := scan?_eq_some h
  have hplain : ∀ c ∈ content.toList.flatMap escapeChar, (c == '<') = false :=
    fun c hc => beq_false_of_ne (ne_of_mem_escape hc).1
  have hcontent : pieces (· == '<') (escape content ++ rest).toList =
      (content.toList.flatMap escapeChar ++ lead) :: segments := by
    rw [String.toList_append, toList_escape, pieces_append_of_no_sep hplain, hpieces]
    rfl
  apply scan?_of_pieces hcontent
  · rw [decode_escape_append, hlead]
    simp [Passage.text]
  · exact htags

/-- A tag in front. -/
theorem scan?_tag_append {rest : String} {passage : Passage} (h : scan? rest = some passage)
    {inside : String} {tag : Tag} (htag : tag? inside.toList = some tag)
    (hinside : ∀ c ∈ inside.toList, c ≠ '<' ∧ c ≠ '>') :
    scan? ("<" ++ inside ++ ">" ++ rest) = some (passage.tag tag) := by
  obtain ⟨lead, segments, hpieces, hlead, htags⟩ := scan?_eq_some h
  have hplain : ∀ c ∈ inside.toList ++ ['>'], (c == '<') = false := by
    intro c hc
    rcases List.mem_append.1 hc with hc | hc
    · exact beq_false_of_ne (hinside c hc).1
    · rw [List.mem_singleton.1 hc]
      rfl
  -- The tag ends at its own bracket, and what the rest begins with is the text after it.
  have hsegment : segment? (inside.toList ++ '>' :: lead) = some (tag, passage.lead) := by
    have hcut := cutAt_append (fun c hc => (hinside c hc).2) lead
    simp [segment?, hcut, htag, hlead]
  have hlist : ("<" ++ inside ++ ">" ++ rest).toList =
      '<' :: (inside.toList ++ ['>'] ++ rest.toList) := by simp
  have htext : pieces (· == '<') ("<" ++ inside ++ ">" ++ rest).toList =
      [] :: (inside.toList ++ '>' :: lead) :: segments := by
    rw [hlist, pieces_cons_of_sep rfl, pieces_append_of_no_sep hplain, hpieces]
    simp
  apply scan?_of_pieces htext
  · rfl
  · simp [hsegment, htags, Passage.tag]

/-! ## What is read off a node -/

mutual

/-- What is read off a part of a line in front of a passage. -/
def Inline.scan (passage : Passage) : Inline → Passage
  | .text content => passage.text content
  | .void name attributes => passage.tag (.opening name attributes)
  | .empty name attributes => passage.tag (.alone name attributes)
  | .element name attributes contents =>
    (Inline.scanAll (passage.tag (.closing name)) contents).tag (.opening name attributes)

def Inline.scanAll (passage : Passage) : List Inline → Passage
  | [] => passage
  | first :: rest => Inline.scan (Inline.scanAll passage rest) first

end

mutual

/-- What is read off a node at a depth in front of a passage. -/
def Node.scan (depth : Nat) (passage : Passage) : Node → Passage
  | .line contents => (contents.scan (passage.text "\n")).text (indent depth)
  | .block name attributes contents =>
    let close := ((passage.text "\n").tag (.closing name)).text (indent depth)
    let contents := (Node.scanAll (depth + 1) close contents).text "\n"
    (contents.tag (.opening name attributes)).text (indent depth)

def Node.scanAll (depth : Nat) (passage : Passage) : List Node → Passage
  | [] => passage
  | first :: rest => Node.scan depth (Node.scanAll depth passage rest) first

end

mutual

/-- Elements and attributes have names. -/
def Inline.isNamed : Inline → Bool
  | .text _ => true
  | .void name attributes | .empty name attributes => isName name.toList && areNamed attributes
  | .element name attributes contents =>
    isName name.toList && areNamed attributes && Inline.areAllNamed contents

def Inline.areAllNamed : List Inline → Bool
  | [] => true
  | first :: rest => Inline.isNamed first && Inline.areAllNamed rest

end

mutual

def Node.isNamed : Node → Bool
  | .line contents => contents.isNamed
  | .block name attributes contents =>
    isName name.toList && areNamed attributes && Node.areAllNamed contents

def Node.areAllNamed : List Node → Bool
  | [] => true
  | first :: rest => Node.isNamed first && Node.areAllNamed rest

end


@[simp] theorem Node.areAllNamed_eq (contents : List Node) :
    Node.areAllNamed contents = contents.all Node.isNamed := by
  induction contents with
  | nil => rfl
  | cons first rest ih => rw [Node.areAllNamed, ih, List.all_cons]

@[simp] theorem Node.isNamed_block (name : String) (attributes : List Attribute)
    (contents : List Node) : (Node.block name attributes contents).isNamed =
      (isName name.toList && areNamed attributes && contents.all Node.isNamed) := by
  rw [Node.isNamed, Node.areAllNamed_eq]

@[simp] theorem Node.isNamed_text (name content : String) (attributes : List Attribute) :
    (Node.text name content attributes).isNamed = (isName name.toList && areNamed attributes) := by
  simp [Node.text, Node.isNamed, Inline.isNamed, Inline.areAllNamed]

@[simp] theorem Node.isNamed_resource (name uri : String) :
    (Node.resource name uri).isNamed = isName name.toList := by
  have hattribute : isName resourceAttribute.toList := by decide
  simp [Node.resource, Node.isNamed, Inline.isNamed, areNamed, hattribute]

/-! ## Written nodes are read back -/

theorem scan?_startTag_append {rest : String} {passage : Passage} (h : scan? rest = some passage)
    {name : String} {attributes : List Attribute} (hname : isName name.toList)
    (hattributes : areNamed attributes) :
    scan? (startTag name attributes ++ rest) = some (passage.tag (.opening name attributes)) :=
  scan?_tag_append h (tag?_tagText hname hattributes).1
    fun _ hc => ne_of_mem_tagText hname hattributes hc

theorem scan?_emptyTag_append {rest : String} {passage : Passage} (h : scan? rest = some passage)
    {name : String} {attributes : List Attribute} (hname : isName name.toList)
    (hattributes : areNamed attributes) :
    scan? ("<" ++ tagText name attributes ++ "/>" ++ rest) =
      some (passage.tag (.alone name attributes)) := by
  have htext : "<" ++ tagText name attributes ++ "/>" =
      "<" ++ (tagText name attributes ++ "/") ++ ">" := by
    rw [String.append_assoc, String.append_assoc, String.append_assoc]
    rfl
  have hlist : (tagText name attributes ++ "/").toList = (tagText name attributes).toList ++ ['/'] :=
    String.toList_append
  rw [htext]
  apply scan?_tag_append h
  · rw [hlist]
    exact (tag?_tagText hname hattributes).2
  · rw [hlist]
    intro c hc
    rcases List.mem_append.1 hc with hc | hc
    · exact ne_of_mem_tagText hname hattributes hc
    · rw [List.mem_singleton.1 hc]
      decide

theorem scan?_endTag_append {rest : String} {passage : Passage} (h : scan? rest = some passage)
    {name : String} (hname : isName name.toList) :
    scan? (endTag name ++ rest) = some (passage.tag (.closing name)) := by
  have hlist : ("/" ++ name).toList = '/' :: name.toList := by simp
  have htext : endTag name = "<" ++ ("/" ++ name) ++ ">" := by
    simp [endTag, ← String.append_assoc]
  rw [htext]
  apply scan?_tag_append h
  · rw [hlist]
    exact tag?_closing hname
  · rw [hlist]
    intro c hc
    rcases List.mem_cons.1 hc with rfl | hc
    · decide
    · exact ⟨ne_of_isName hname hc (by decide), ne_of_isName hname hc (by decide)⟩

theorem escape_of_plain {text : String} (h : ∀ c ∈ text.toList, escapeChar c = [c]) :
    escape text = text := by
  rw [escape, List.flatMap_congr h, List.flatMap_singleton', String.ofList_toList]

theorem escape_indent (depth : Nat) : escape (indent depth) = indent depth := by
  apply escape_of_plain
  intro c hc
  rw [indent, String.toList_ofList] at hc
  rw [List.eq_of_mem_replicate hc]
  rfl

theorem scan?_lineBreak_append {rest : String} {passage : Passage} (h : scan? rest = some passage) :
    scan? ("\n" ++ rest) = some (passage.text "\n") := by
  have hplain : escape "\n" = "\n" := by decide
  have hfront := scan?_escape_append h "\n"
  rw [hplain] at hfront
  exact hfront

/-! The laws of nodes go from the end to the front: what is read off the rest is known
first, then what is read off the last part in front of it. -/

mutual

theorem scan?_inline_append {rest : String} {passage : Passage} (h : scan? rest = some passage) :
    ∀ {inline : Inline}, inline.isNamed →
      scan? (inline.render ++ rest) = some (inline.scan passage)
  | .text content, _ => scan?_escape_append h content
  | .void name attributes, hnamed => by
    rw [Inline.isNamed, Bool.and_eq_true] at hnamed
    exact scan?_startTag_append h hnamed.1 hnamed.2
  | .empty name attributes, hnamed => by
    rw [Inline.isNamed, Bool.and_eq_true] at hnamed
    exact scan?_emptyTag_append h hnamed.1 hnamed.2
  | .element name attributes contents, hnamed => by
    rw [Inline.isNamed, Bool.and_eq_true, Bool.and_eq_true] at hnamed
    have hclose := scan?_endTag_append h hnamed.1.1
    have hcontents := scan?_inlines_append hclose hnamed.2
    have hopen := scan?_startTag_append hcontents hnamed.1.1 hnamed.1.2
    rw [Inline.render, String.append_assoc, String.append_assoc]
    exact hopen

theorem scan?_inlines_append {rest : String} {passage : Passage} (h : scan? rest = some passage) :
    ∀ {contents : List Inline}, Inline.areAllNamed contents →
      scan? (Inline.renderAll contents ++ rest) = some (Inline.scanAll passage contents)
  | [], _ => by rw [Inline.renderAll, String.empty_append, h, Inline.scanAll]
  | first :: more, hnamed => by
    rw [Inline.areAllNamed, Bool.and_eq_true] at hnamed
    have hmore := scan?_inlines_append h hnamed.2
    have hfirst := scan?_inline_append hmore hnamed.1
    rw [Inline.renderAll, String.append_assoc]
    exact hfirst

end

theorem scan?_line_append {rest : String} {passage : Passage} (depth : Nat) {text : String}
    (h : scan? (text ++ ("\n" ++ rest)) = some passage) :
    scan? (line depth text ++ rest) = some (passage.text (indent depth)) := by
  have hfront := scan?_escape_append h (indent depth)
  rw [escape_indent, ← String.append_assoc, ← String.append_assoc] at hfront
  exact hfront

mutual

/-- **Scanning.** What is read off a written node in front of any text is what
    the node's tags and texts put in front of what is read off that text. -/
theorem scan?_node_append (depth : Nat) {rest : String} {passage : Passage}
    (h : scan? rest = some passage) : ∀ {node : Node}, node.isNamed →
      scan? (node.render depth ++ rest) = some (node.scan depth passage)
  | .line contents, hnamed => by
    rw [Node.isNamed] at hnamed
    exact scan?_line_append depth (scan?_inline_append (scan?_lineBreak_append h) hnamed)
  | .block name attributes contents, hnamed => by
    rw [Node.isNamed, Bool.and_eq_true, Bool.and_eq_true] at hnamed
    have hclose := scan?_line_append depth
      (scan?_endTag_append (scan?_lineBreak_append h) hnamed.1.1)
    have hcontents := scan?_nodes_append (depth + 1) hclose hnamed.2
    have hopen := scan?_line_append depth
      (scan?_startTag_append (scan?_lineBreak_append hcontents) hnamed.1.1 hnamed.1.2)
    rw [Node.render, String.append_assoc, String.append_assoc]
    exact hopen

theorem scan?_nodes_append (depth : Nat) {rest : String} {passage : Passage}
    (h : scan? rest = some passage) : ∀ {contents : List Node}, Node.areAllNamed contents →
      scan? (Node.renderAll depth contents ++ rest) = some (Node.scanAll depth passage contents)
  | [], _ => by rw [Node.renderAll, String.empty_append, h, Node.scanAll]
  | first :: more, hnamed => by
    rw [Node.areAllNamed, Bool.and_eq_true] at hnamed
    have hmore := scan?_nodes_append depth h hnamed.2
    have hfirst := scan?_node_append depth hmore hnamed.1
    rw [Node.renderAll, String.append_assoc]
    exact hfirst

end

end BillOfMaterials.Markup
