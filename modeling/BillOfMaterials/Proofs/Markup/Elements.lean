import BillOfMaterials.Proofs.Markup.Scanning

/-! # Reading elements

    Tags and texts are put together to elements with a stack of those that have
    begun.  An end tag has to name the innermost one.

    * `Element` is what is read: a name, attributes, and what stands directly in
      it.
    * `Nesting.read` takes in a passage; a node adds its own text and elements to
      the innermost element and leaves the stack as it was (`Nesting.read_node`).
    * `Element.named` finds the elements of a name, however deep they are.
    * `read?_document`: the root of a written document is read back. -/

namespace BillOfMaterials.Markup

open Text

/-- An element as it is read, with the texts and the elements that stand directly
    in it. -/
structure Element where
  name : String
  attributes : List Attribute
  text : String
  children : List Element
  deriving Repr

namespace Element

/-- An element with nothing in it. -/
def bare (name : String) (attributes : List Attribute) : Element := ⟨name, attributes, "", []⟩

@[simp] theorem name_bare (name : String) (attributes : List Attribute) :
    (bare name attributes).name = name := rfl

/-- More text and more elements at the end. -/
def extend (element : Element) (text : String) (children : List Element) : Element :=
  { element with text := element.text ++ text, children := element.children ++ children }

@[simp] theorem extend_nothing (element : Element) : element.extend "" [] = element := by
  cases element
  simp [extend]

@[simp] theorem extend_extend (element : Element) (first second : String)
    (children others : List Element) :
    (element.extend first children).extend second others =
      element.extend (first ++ second) (children ++ others) := by
  simp [extend, String.append_assoc]

end Element

/-! ## Elements that have begun -/

/-- The innermost element that has begun, and those around it from the inside
    out. -/
structure Nesting where
  inner : Element
  outer : List Element

namespace Nesting

def extend (nesting : Nesting) (text : String) (children : List Element) : Nesting :=
  { nesting with inner := nesting.inner.extend text children }

/-- Takes a tag in. -/
def place (nesting : Nesting) : Tag → Option Nesting
  | .declaration _ => some nesting
  | .opening name attributes => some ⟨.bare name attributes, nesting.inner :: nesting.outer⟩
  | .alone name attributes => some (nesting.extend "" [.bare name attributes])
  | .closing name =>
    match nesting.outer with
    | [] => none
    | parent :: outer =>
      if nesting.inner.name = name then some ⟨parent.extend "" [nesting.inner], outer⟩ else none

/-- Takes in tags, each with the text after it. -/
def readTags (nesting : Nesting) : List (Tag × String) → Option Nesting
  | [] => some nesting
  | (tag, text) :: rest => (nesting.place tag).bind fun next => (next.extend text []).readTags rest

/-- Takes in a passage. -/
def read (nesting : Nesting) (passage : Passage) : Option Nesting :=
  (nesting.extend passage.lead []).readTags passage.tags

@[simp] theorem extend_nothing (nesting : Nesting) : nesting.extend "" [] = nesting := by
  simp [extend]

@[simp] theorem extend_extend (nesting : Nesting) (first second : String)
    (children others : List Element) :
    (nesting.extend first children).extend second others =
      nesting.extend (first ++ second) (children ++ others) := by
  simp [extend]

theorem read_text (nesting : Nesting) (passage : Passage) (content : String) :
    nesting.read (passage.text content) = (nesting.extend content []).read passage := by
  simp [read, Passage.text]

theorem read_tag (nesting : Nesting) (passage : Passage) (tag : Tag) :
    nesting.read (passage.tag tag) = (nesting.place tag).bind (·.read passage) := by
  rw [read, Passage.tag, extend_nothing]
  rfl

theorem read_alone (nesting : Nesting) (passage : Passage) (name : String)
    (attributes : List Attribute) :
    nesting.read (passage.tag (.alone name attributes)) =
      (nesting.extend "" [.bare name attributes]).read passage :=
  read_tag nesting passage (.alone name attributes)

/-- An element that begins, takes text and elements in and ends is added to the
    one around it. -/
theorem read_element (nesting : Nesting) (attributes : List Attribute)
    {passage contents : Passage} {name : String} {text : String} {children : List Element}
    (h : ∀ inside : Nesting, inside.read contents =
      (inside.extend text children).read (passage.tag (.closing name))) :
    nesting.read (contents.tag (.opening name attributes)) =
      (nesting.extend "" [⟨name, attributes, text, children⟩]).read passage := by
  have hbegin : nesting.read (contents.tag (.opening name attributes)) =
      (Nesting.mk (.bare name attributes) (nesting.inner :: nesting.outer)).read contents :=
    read_tag nesting contents (.opening name attributes)
  have hinner : (Element.bare name attributes).extend text children =
      ⟨name, attributes, text, children⟩ := by
    simp [Element.bare, Element.extend]
  rw [hbegin, h, read_tag]
  simp [place, extend, hinner]

end Nesting

/-! ## What a node adds -/

/-- The text that a part of a line adds to the element around it. -/
def Inline.ownText : Inline → String
  | .text content => content
  | _ => ""

def Inline.ownTextAll : List Inline → String
  | [] => ""
  | first :: rest => first.ownText ++ Inline.ownTextAll rest

mutual

/-- The elements that a part of a line adds to the element around it. -/
def Inline.elements : Inline → List Element
  | .text _ => []
  | .void name attributes | .empty name attributes => [.bare name attributes]
  | .element name attributes contents =>
    [⟨name, attributes, Inline.ownTextAll contents, Inline.elementsAll contents⟩]

def Inline.elementsAll : List Inline → List Element
  | [] => []
  | first :: rest => Inline.elements first ++ Inline.elementsAll rest

end

/-- The text that a node adds to the element around it, which is the layout of its
    lines if it is an element. -/
def Node.ownText (depth : Nat) : Node → String
  | .line contents => indent depth ++ contents.ownText ++ "\n"
  | .block .. => indent depth ++ "\n"

def Node.ownTextAll (depth : Nat) : List Node → String
  | [] => ""
  | first :: rest => first.ownText depth ++ Node.ownTextAll depth rest

mutual

/-- The elements that a node adds to the element around it. -/
def Node.elements (depth : Nat) : Node → List Element
  | .line contents => contents.elements
  | .block name attributes contents =>
    [⟨name, attributes, "\n" ++ (Node.ownTextAll (depth + 1) contents ++ indent depth),
      Node.elementsAll (depth + 1) contents⟩]

def Node.elementsAll (depth : Nat) : List Node → List Element
  | [] => []
  | first :: rest => Node.elements depth first ++ Node.elementsAll depth rest

end

@[simp] theorem Node.elementsAll_eq (depth : Nat) (contents : List Node) :
    Node.elementsAll depth contents = contents.flatMap (Node.elements depth) := by
  induction contents with
  | nil => rfl
  | cons first rest ih => rw [Node.elementsAll, ih, List.flatMap_cons]

/-- The element of a block at a depth. -/
def Element.ofBlock (depth : Nat) (name : String) (attributes : List Attribute)
    (contents : List Node) : Element where
  name := name
  attributes := attributes
  text := "\n" ++ (Node.ownTextAll (depth + 1) contents ++ indent depth)
  children := contents.flatMap (Node.elements (depth + 1))

@[simp] theorem Node.elements_block (depth : Nat) (name : String) (attributes : List Attribute)
    (contents : List Node) : (Node.block name attributes contents).elements depth =
      [.ofBlock depth name attributes contents] := by
  rw [Node.elements, Node.elementsAll_eq]
  rfl

/-- A block of nodes that are one element each. -/
theorem Element.children_ofBlock_map {α : Type} {depth : Nat} {node : α → Node}
    {element : α → Element} (h : ∀ item, (node item).elements (depth + 1) = [element item])
    (name : String) (attributes : List Attribute) (items : List α) :
    (Element.ofBlock depth name attributes (items.map node)).children = items.map element := by
  simp only [Element.ofBlock, List.flatMap_map, h]
  exact List.map_eq_flatMap.symm

@[simp] theorem Node.elements_text (depth : Nat) (name content : String)
    (attributes : List Attribute) :
    (Node.text name content attributes).elements depth = [⟨name, attributes, content, []⟩] := by
  simp [Node.text, Node.elements, Inline.elements, Inline.ownTextAll, Inline.ownText,
    Inline.elementsAll]

@[simp] theorem Node.elements_resource (depth : Nat) (name uri : String) :
    (Node.resource name uri).elements depth = [.bare name [(resourceAttribute, uri)]] := by
  rw [Node.resource, Node.elements, Inline.elements]

/-! ## Elements of a name -/

namespace Element

mutual

/-- The elements of a name, from the outside in; the element itself may be one. -/
def named (name : String) : Element → List Element
  | ⟨own, attributes, text, children⟩ =>
    (if own = name then [⟨own, attributes, text, children⟩] else []) ++ namedAll name children

def namedAll (name : String) : List Element → List Element
  | [] => []
  | first :: rest => named name first ++ namedAll name rest

end

theorem namedAll_eq (name : String) (elements : List Element) :
    namedAll name elements = elements.flatMap (named name) := by
  induction elements with
  | nil => rfl
  | cons first rest ih => rw [namedAll, ih, List.flatMap_cons]

theorem named_of_eq {name : String} {element : Element} (h : element.name = name) :
    element.named name = element :: element.children.flatMap (named name) := by
  cases element
  rw [named, if_pos h, namedAll_eq]
  rfl

theorem named_of_ne {name : String} {element : Element} (h : element.name ≠ name) :
    element.named name = element.children.flatMap (named name) := by
  cases element
  rw [named, if_neg h, namedAll_eq]
  rfl

end Element

/-- The elements of a name that are read off a node. -/
def Node.named (name : String) (depth : Nat) (node : Node) : List Element :=
  (node.elements depth).flatMap (Element.named name)

theorem Node.named_block (name : String) (depth : Nat) (own : String)
    (attributes : List Attribute) (contents : List Node) :
    (Node.block own attributes contents).named name depth =
      (Element.ofBlock depth own attributes contents).named name := by
  rw [Node.named, Node.elements_block, List.flatMap_singleton]

/-- A block that is an element of the name itself. -/
theorem Element.named_ofBlock_of_eq {name own : String} (h : own = name) (depth : Nat)
    (attributes : List Attribute) (contents : List Node) :
    (Element.ofBlock depth own attributes contents).named name =
      .ofBlock depth own attributes contents :: contents.flatMap (Node.named name (depth + 1)) := by
  rw [Element.named_of_eq h, Element.ofBlock, List.flatMap_assoc]
  rfl

theorem Element.named_ofBlock_of_ne {name own : String} (h : own ≠ name) (depth : Nat)
    (attributes : List Attribute) (contents : List Node) :
    (Element.ofBlock depth own attributes contents).named name =
      contents.flatMap (Node.named name (depth + 1)) := by
  rw [Element.named_of_ne h, Element.ofBlock, List.flatMap_assoc]
  rfl

theorem Node.named_text {name own : String} (h : own ≠ name) (depth : Nat) (content : String)
    (attributes : List Attribute) : (Node.text own content attributes).named name depth = [] := by
  rw [Node.named, Node.elements_text, List.flatMap_singleton, Element.named_of_ne h]
  rfl

theorem Node.named_resource {name own : String} (h : own ≠ name) (depth : Nat) (uri : String) :
    (Node.resource own uri).named name depth = [] := by
  rw [Node.named, Node.elements_resource, List.flatMap_singleton, Element.named_of_ne h]
  rfl

/-! ## Written nodes are read back -/

mutual

/-- Every element has an end. -/
def Inline.isClosed : Inline → Bool
  | .text _ | .empty .. => true
  | .void .. => false
  | .element _ _ contents => Inline.areAllClosed contents

def Inline.areAllClosed : List Inline → Bool
  | [] => true
  | first :: rest => Inline.isClosed first && Inline.areAllClosed rest

end

mutual

def Node.isClosed : Node → Bool
  | .line contents => contents.isClosed
  | .block _ _ contents => Node.areAllClosed contents

def Node.areAllClosed : List Node → Bool
  | [] => true
  | first :: rest => Node.isClosed first && Node.areAllClosed rest

end

@[simp] theorem Node.areAllClosed_eq (contents : List Node) :
    Node.areAllClosed contents = contents.all Node.isClosed := by
  induction contents with
  | nil => rfl
  | cons first rest ih => rw [Node.areAllClosed, ih, List.all_cons]

@[simp] theorem Node.isClosed_block (name : String) (attributes : List Attribute)
    (contents : List Node) :
    (Node.block name attributes contents).isClosed = contents.all Node.isClosed := by
  rw [Node.isClosed, Node.areAllClosed_eq]

@[simp] theorem Node.isClosed_text (name content : String) (attributes : List Attribute) :
    (Node.text name content attributes).isClosed := by
  simp [Node.text, Node.isClosed, Inline.isClosed, Inline.areAllClosed]

@[simp] theorem Node.isClosed_resource (name uri : String) : (Node.resource name uri).isClosed := by
  simp [Node.resource, Node.isClosed, Inline.isClosed]

namespace Nesting

mutual

theorem read_inline (nesting : Nesting) (passage : Passage) : ∀ {inline : Inline}, inline.isClosed →
    nesting.read (inline.scan passage) =
      (nesting.extend inline.ownText inline.elements).read passage
  | .text content, _ => by
    rw [Inline.scan, read_text, Inline.ownText, Inline.elements]
  | .empty name attributes, _ => read_alone nesting passage name attributes
  | .element name attributes contents, h => by
    rw [Inline.isClosed] at h
    have hcontents := fun inside : Nesting =>
      read_inlines inside (passage.tag (.closing name)) h
    exact read_element nesting attributes hcontents

theorem read_inlines (nesting : Nesting) (passage : Passage) :
    ∀ {contents : List Inline}, Inline.areAllClosed contents →
      nesting.read (Inline.scanAll passage contents) =
        (nesting.extend (Inline.ownTextAll contents) (Inline.elementsAll contents)).read passage
  | [], _ => by
    rw [Inline.scanAll, Inline.ownTextAll, Inline.elementsAll, extend_nothing]
  | first :: rest, h => by
    rw [Inline.areAllClosed, Bool.and_eq_true] at h
    rw [Inline.scanAll, read_inline nesting _ h.1, read_inlines _ passage h.2, extend_extend,
      Inline.ownTextAll, Inline.elementsAll]

end

mutual

theorem read_node (depth : Nat) (nesting : Nesting) (passage : Passage) :
    ∀ {node : Node}, node.isClosed → nesting.read (node.scan depth passage) =
      (nesting.extend (node.ownText depth) (node.elements depth)).read passage
  | .line contents, h => by
    rw [Node.isClosed] at h
    rw [Node.scan, read_text, read_inline _ _ h, read_text]
    simp [Node.ownText, Node.elements, String.append_assoc]
  | .block name attributes contents, h => by
    rw [Node.isClosed] at h
    -- Inside are the end of the start tag's line, the contents, and the indentation of
    -- the end tag.
    let close := (passage.text "\n").tag (.closing name)
    have hcontents : ∀ inside : Nesting,
        inside.read ((Node.scanAll (depth + 1) (close.text (indent depth)) contents).text "\n") =
          (inside.extend ("\n" ++ (Node.ownTextAll (depth + 1) contents ++ indent depth))
            (Node.elementsAll (depth + 1) contents)).read close := by
      intro inside
      rw [read_text, read_nodes (depth + 1) _ _ h, read_text, extend_extend, extend_extend,
        List.nil_append, List.append_nil]
    have hnode := read_element (nesting.extend (indent depth) []) attributes hcontents
    rw [Node.scan, read_text]
    rw [read_text, extend_extend, extend_extend] at hnode
    simpa [Node.ownText, Element.ofBlock] using hnode

theorem read_nodes (depth : Nat) (nesting : Nesting) (passage : Passage) :
    ∀ {contents : List Node}, Node.areAllClosed contents →
      nesting.read (Node.scanAll depth passage contents) =
        (nesting.extend (Node.ownTextAll depth contents)
          (Node.elementsAll depth contents)).read passage
  | [], _ => by
    rw [Node.scanAll, Node.ownTextAll, Node.elementsAll, extend_nothing]
  | first :: rest, h => by
    rw [Node.areAllClosed, Bool.and_eq_true] at h
    rw [Node.scanAll, read_node depth nesting _ h.1, read_nodes depth _ passage h.2,
      extend_extend, Node.ownTextAll, Node.elementsAll]

end

end Nesting

/-! ## Documents -/

/-- Reads the root element of a document. -/
def read? (text : String) : Option Element := do
  let passage ← scan? text
  let nesting ← Nesting.read ⟨.bare "" [], []⟩ passage
  match nesting.outer, nesting.inner.children with
  | [], [root] => if isAllBlank nesting.inner.text.toList then some root else none
  | _, _ => none

/-- A node that is one element is read back, on its own and at any depth. -/
theorem read?_node {node : Node} {depth : Nat} {element : Element} (hnamed : node.isNamed)
    (hclosed : node.isClosed) (helement : node.elements depth = [element])
    (hblank : isAllBlank (node.ownText depth).toList) : read? (node.render depth) = some element := by
  have hend : scan? "" = some ⟨"", []⟩ := rfl
  have hscan := scan?_node_append depth hend hnamed
  rw [String.append_empty] at hscan
  have hread : Nesting.read ⟨.bare "" [], []⟩ (node.scan depth ⟨"", []⟩) =
      some ⟨⟨"", [], node.ownText depth, [element]⟩, []⟩ := by
    rw [Nesting.read_node depth _ _ hclosed, helement]
    simp [Nesting.read, Nesting.readTags, Nesting.extend, Element.bare, Element.extend]
  rw [read?, hscan, Option.bind_eq_bind, Option.bind_some, hread]
  exact if_pos hblank

/-- **Documents.** The root of a written document is read back. -/
theorem read?_document {inside declared : String}
    (hdeclaration : tag? inside.toList = some (.declaration declared))
    (hinside : ∀ c ∈ inside.toList, c ≠ '<' ∧ c ≠ '>')
    {name : String} {attributes : List Attribute} {contents : List Node}
    (hnamed : (Node.block name attributes contents).isNamed)
    (hclosed : (Node.block name attributes contents).isClosed) :
    read? (line 0 ("<" ++ inside ++ ">") ++ (Node.block name attributes contents).render 0) =
      some (.ofBlock 0 name attributes contents) := by
  have hend : scan? "" = some ⟨"", []⟩ := rfl
  have hnode := scan?_node_append 0 hend hnamed
  have hscan := scan?_line_append 0
    (scan?_tag_append (scan?_lineBreak_append hnode) hdeclaration hinside)
  rw [String.append_empty] at hscan
  have hread : ∀ nesting : Nesting,
      nesting.read (((((Node.block name attributes contents).scan 0 ⟨"", []⟩).text "\n").tag
        (.declaration declared)).text (indent 0)) =
      some (nesting.extend "\n\n" [.ofBlock 0 name attributes contents]) := by
    intro nesting
    rw [Nesting.read_text, Nesting.read_tag, Nesting.place, Option.bind_some, Nesting.read_text,
      Nesting.read_node 0 _ _ hclosed]
    simp [Node.ownText, indent, Nesting.read, Nesting.readTags]
  have hblank : isAllBlank "\n\n".toList := by decide
  simp only [read?, hscan, hread, Option.bind_eq_bind, Option.bind_some, Nesting.extend,
    Element.bare, Element.extend, List.nil_append, String.empty_append, hblank, if_true]

end BillOfMaterials.Markup
