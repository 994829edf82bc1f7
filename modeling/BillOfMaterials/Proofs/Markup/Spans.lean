import BillOfMaterials.Proofs.Markup.Scanning

/-! # Tags in order and what stands between them

    * `Node.tags`: the tags that a node is written with; no text of the node has a
      part in them, except for the values of attributes (`Node.map_fst_scan`).
    * `Node.scan_before`: what is read off a node does not depend on the tags after it.
    * `spans` reads the elements of a name, each from its start tag up to its end tag.
    * `spans_line`, `spans_block`, `spans_scan_of_not_opens`: what is read in front of
      other tags of an element of the name, and of a node that holds none. -/

namespace BillOfMaterials.Markup

/-! ## The tags of a node -/

mutual

/-- The tags that a part of a line is written with. -/
def Inline.tags : Inline → List Tag
  | .text _ => []
  | .void name attributes => [.opening name attributes]
  | .empty name attributes => [.alone name attributes]
  | .element name attributes contents =>
    .opening name attributes :: Inline.allTags contents ++ [.closing name]

def Inline.allTags : List Inline → List Tag
  | [] => []
  | first :: rest => Inline.tags first ++ Inline.allTags rest

end

mutual

/-- The tags that a node is written with. -/
def Node.tags : Node → List Tag
  | .line contents => contents.tags
  | .block name attributes contents =>
    .opening name attributes :: Node.allTags contents ++ [.closing name]

def Node.allTags : List Node → List Tag
  | [] => []
  | first :: rest => Node.tags first ++ Node.allTags rest

end

@[simp] theorem Inline.allTags_eq (contents : List Inline) :
    Inline.allTags contents = contents.flatMap Inline.tags := by
  induction contents with
  | nil => rfl
  | cons first rest ih => rw [Inline.allTags, ih, List.flatMap_cons]

@[simp] theorem Node.allTags_eq (contents : List Node) :
    Node.allTags contents = contents.flatMap Node.tags := by
  induction contents with
  | nil => rfl
  | cons first rest ih => rw [Node.allTags, ih, List.flatMap_cons]

@[simp] theorem Node.tags_block (name : String) (attributes : List Attribute)
    (contents : List Node) : (Node.block name attributes contents).tags =
      .opening name attributes :: contents.flatMap Node.tags ++ [.closing name] := by
  rw [Node.tags, Node.allTags_eq]

@[simp] theorem Node.tags_text (name content : String) (attributes : List Attribute) :
    (Node.text name content attributes).tags = [.opening name attributes, .closing name] := by
  simp [Node.text, Node.tags, Inline.tags]

/-- What is true of the tags of an element is true of its own two and of those in it. -/
theorem Inline.forall_tags_element {p : Tag → Prop} {name : String}
    {attributes : List Attribute} {contents : List Inline} (hopening : p (.opening name attributes))
    (hclosing : p (.closing name)) (h : ∀ tag ∈ contents.flatMap Inline.tags, p tag) :
    ∀ tag ∈ (Inline.element name attributes contents).tags, p tag := by
  intro tag htag
  rw [Inline.tags, Inline.allTags_eq, List.cons_append, List.mem_cons, List.mem_append,
    List.mem_singleton] at htag
  rcases htag with rfl | htag | rfl
  · exact hopening
  · exact h tag htag
  · exact hclosing

@[simp] theorem Passage.tags_text (content : String) (passage : Passage) :
    (passage.text content).tags = passage.tags := rfl

@[simp] theorem Passage.tags_tag (tag : Tag) (passage : Passage) :
    (passage.tag tag).tags = (tag, passage.lead) :: passage.tags := rfl

mutual

theorem Inline.map_fst_scan : ∀ (inline : Inline) (passage : Passage),
    (inline.scan passage).tags.map Prod.fst = inline.tags ++ passage.tags.map Prod.fst
  | .text _, _ => rfl
  | .void _ _, _ => rfl
  | .empty _ _, _ => rfl
  | .element name attributes contents, passage => by
    have hcontents := Inline.map_fst_scanAll contents (passage.tag (.closing name))
    simp only [Inline.scan, Inline.tags, Passage.tags_tag, List.map_cons] at hcontents ⊢
    rw [hcontents]
    simp

theorem Inline.map_fst_scanAll : ∀ (contents : List Inline) (passage : Passage),
    (Inline.scanAll passage contents).tags.map Prod.fst =
      Inline.allTags contents ++ passage.tags.map Prod.fst
  | [], _ => rfl
  | first :: rest, passage => by
    have hfirst := Inline.map_fst_scan first (Inline.scanAll passage rest)
    have hrest := Inline.map_fst_scanAll rest passage
    rw [Inline.scanAll, hfirst, hrest, Inline.allTags, List.append_assoc]

end

mutual

/-- The tags that are read off a node are those that it is written with. -/
theorem Node.map_fst_scan : ∀ (node : Node) (depth : Nat) (passage : Passage),
    (node.scan depth passage).tags.map Prod.fst = node.tags ++ passage.tags.map Prod.fst
  | .line contents, depth, passage => Inline.map_fst_scan contents (passage.text "\n")
  | .block name attributes contents, depth, passage => by
    have hcontents := Node.map_fst_scanAll contents (depth + 1)
      (((passage.text "\n").tag (.closing name)).text (indent depth))
    simp only [Node.scan, Node.tags, Passage.tags_tag, Passage.tags_text, List.map_cons]
      at hcontents ⊢
    rw [hcontents]
    simp

theorem Node.map_fst_scanAll : ∀ (contents : List Node) (depth : Nat) (passage : Passage),
    (Node.scanAll depth passage contents).tags.map Prod.fst =
      Node.allTags contents ++ passage.tags.map Prod.fst
  | [], _, _ => rfl
  | first :: rest, depth, passage => by
    have hfirst := Node.map_fst_scan first depth (Node.scanAll depth passage rest)
    have hrest := Node.map_fst_scanAll rest depth passage
    rw [Node.scanAll, hfirst, hrest, Node.allTags, List.append_assoc]

end

theorem Node.scanAll_append (depth : Nat) (passage : Passage) (first second : List Node) :
    Node.scanAll depth passage (first ++ second) =
      Node.scanAll depth (Node.scanAll depth passage second) first := by
  induction first with
  | nil => rfl
  | cons node first ih => rw [List.cons_append, Node.scanAll, ih, Node.scanAll]

/-! ## Tags after a passage -/

/-- More tags after those of a passage. -/
def Passage.before (passage : Passage) (tags : List (Tag × String)) : Passage :=
  { passage with tags := passage.tags ++ tags }

theorem Passage.eq_before (passage : Passage) :
    passage = Passage.before ⟨passage.lead, []⟩ passage.tags := rfl

@[simp] theorem Passage.tags_before (passage : Passage) (tags : List (Tag × String)) :
    (passage.before tags).tags = passage.tags ++ tags := rfl

mutual

theorem Inline.scan_before (tags : List (Tag × String)) : ∀ (inline : Inline)
    (passage : Passage), inline.scan (passage.before tags) = (inline.scan passage).before tags
  | .text _, _ => rfl
  | .void _ _, _ => rfl
  | .empty _ _, _ => rfl
  | .element name attributes contents, passage => by
    have hcontents := Inline.scanAll_before tags contents (passage.tag (.closing name))
    rw [Inline.scan, Inline.scan]
    exact congrArg (Passage.tag (.opening name attributes)) hcontents

theorem Inline.scanAll_before (tags : List (Tag × String)) : ∀ (contents : List Inline)
    (passage : Passage), Inline.scanAll (passage.before tags) contents =
      (Inline.scanAll passage contents).before tags
  | [], _ => rfl
  | first :: rest, passage => by
    rw [Inline.scanAll, Inline.scanAll_before tags rest, Inline.scan_before tags first,
      Inline.scanAll]

end

mutual

/-- What is read off a node depends on the text after it alone. -/
theorem Node.scan_before (tags : List (Tag × String)) : ∀ (node : Node) (depth : Nat)
    (passage : Passage), node.scan depth (passage.before tags) =
      (node.scan depth passage).before tags
  | .line contents, depth, passage =>
    congrArg (Passage.text (indent depth))
      (Inline.scan_before tags contents (passage.text "\n"))
  | .block name attributes contents, depth, passage => by
    have hcontents := Node.scanAll_before tags contents (depth + 1)
      (((passage.text "\n").tag (.closing name)).text (indent depth))
    rw [Node.scan, Node.scan]
    exact congrArg (fun contents : Passage =>
      ((contents.text "\n").tag (.opening name attributes)).text (indent depth)) hcontents

theorem Node.scanAll_before (tags : List (Tag × String)) : ∀ (contents : List Node)
    (depth : Nat) (passage : Passage), Node.scanAll depth (passage.before tags) contents =
      (Node.scanAll depth passage contents).before tags
  | [], _, _ => rfl
  | first :: rest, depth, passage => by
    rw [Node.scanAll, Node.scanAll_before tags rest, Node.scan_before tags first, Node.scanAll]

end

/-! ## The elements of a name -/

/-- The tag begins an element of the name. -/
def Tag.opens (name : String) : Tag → Bool
  | .opening other _ => other == name
  | _ => false

/-- The elements of a name, each from its start tag up to the next end tag of the name,
    as tags with the text after each.  The first argument is what has been read of one
    that has begun. -/
def spans (name : String) : Option (List (Tag × String)) → List (Tag × String) →
    List (List (Tag × String))
  | none, [] => []
  | some span, [] => [span]
  | none, first :: rest =>
    if first.1.opens name then spans name (some [first]) rest else spans name none rest
  | some span, first :: rest =>
    if first.1 = .closing name then span :: spans name none rest
    else spans name (some (span ++ [first])) rest

variable {name : String}

theorem spans_append_of_not_opens {before : List (Tag × String)}
    (h : ∀ tag ∈ before.map Prod.fst, tag.opens name = false) (rest : List (Tag × String)) :
    spans name none (before ++ rest) = spans name none rest := by
  induction before with
  | nil => rfl
  | cons first before ih =>
    simp only [List.map_cons, List.forall_mem_cons] at h
    rw [List.cons_append, spans, h.1, if_neg Bool.false_ne_true, ih h.2]

/-- Up to the end tag everything is kept, also start tags of the name. -/
theorem spans_some_append {inner : List (Tag × String)}
    (h : ∀ tag ∈ inner.map Prod.fst, tag ≠ .closing name) (span : List (Tag × String))
    (after : String) (rest : List (Tag × String)) :
    spans name (some span) (inner ++ (.closing name, after) :: rest) =
      (span ++ inner) :: spans name none rest := by
  induction inner generalizing span with
  | nil => rw [List.nil_append, spans, if_pos rfl, List.append_nil]
  | cons first inner ih =>
    simp only [List.map_cons, List.forall_mem_cons] at h
    rw [List.cons_append, spans, if_neg h.1, ih h.2, List.append_assoc, List.singleton_append]

/-- An element is a span of its own. -/
theorem spans_element {contents : Passage}
    (h : ∀ tag ∈ contents.tags.map Prod.fst, tag ≠ .closing name) (attributes : List Attribute)
    (passage : Passage) :
    spans name none ((contents.before (passage.tag (.closing name)).tags).tag
      (.opening name attributes)).tags =
      (contents.tag (.opening name attributes)).tags :: spans name none passage.tags := by
  rw [Passage.tags_tag, Passage.tags_before, Passage.tags_tag, Passage.tags_tag, spans, Tag.opens,
    beq_self_eq_true, if_pos rfl, spans_some_append h, List.singleton_append]
  rfl

/-- A node with no element of the name adds none. -/
theorem spans_scan_of_not_opens {node : Node} (h : ∀ tag ∈ node.tags, tag.opens name = false)
    (depth : Nat) (passage : Passage) :
    spans name none (node.scan depth passage).tags = spans name none passage.tags := by
  have htags := node.map_fst_scan depth ⟨passage.lead, []⟩
  rw [List.map_nil, List.append_nil] at htags
  -- The tags after the node are set apart, and the node's own are passed over.
  rw [passage.eq_before, Node.scan_before, Passage.tags_before]
  apply spans_append_of_not_opens
  rwa [htags]

theorem spans_scanAll_of_not_opens {contents : List Node}
    (h : ∀ tag ∈ contents.flatMap Node.tags, tag.opens name = false) (depth : Nat)
    (passage : Passage) :
    spans name none (Node.scanAll depth passage contents).tags = spans name none passage.tags := by
  induction contents with
  | nil => rfl
  | cons first rest ih =>
    simp only [List.flatMap_cons, List.forall_mem_append] at h
    rw [Node.scanAll, spans_scan_of_not_opens h.1, ih h.2]

/-- An element on a line of its own. -/
theorem spans_line {contents : List Inline}
    (h : ∀ tag ∈ contents.flatMap Inline.tags, tag ≠ .closing name) (attributes : List Attribute)
    (depth : Nat) (passage : Passage) :
    spans name none ((Node.line (.element name attributes contents)).scan depth passage).tags =
      ((Inline.scanAll ⟨"", []⟩ contents).tag (.opening name attributes)).tags ::
        spans name none passage.tags := by
  have htags := Inline.map_fst_scanAll contents ⟨"", []⟩
  rw [List.map_nil, List.append_nil, Inline.allTags_eq] at htags
  rw [← htags] at h
  have hspan := spans_element h attributes (passage.text "\n")
  rw [← Inline.scanAll_before] at hspan
  exact hspan

/-- An element on several lines. -/
theorem spans_block {contents : List Node}
    (h : ∀ tag ∈ contents.flatMap Node.tags, tag ≠ .closing name) (attributes : List Attribute)
    (depth : Nat) (passage : Passage) :
    spans name none ((Node.block name attributes contents).scan depth passage).tags =
      (((Node.scanAll (depth + 1) ⟨indent depth, []⟩ contents).text "\n").tag
        (.opening name attributes)).tags :: spans name none passage.tags := by
  have htags := Node.map_fst_scanAll contents (depth + 1) ⟨indent depth, []⟩
  rw [List.map_nil, List.append_nil, Node.allTags_eq] at htags
  have hinner : ∀ tag ∈ ((Node.scanAll (depth + 1) ⟨indent depth, []⟩ contents).text
      "\n").tags.map Prod.fst, tag ≠ .closing name := by
    rwa [Passage.tags_text, htags]
  -- The last text of the contents is the indent of the end tag's line.
  have hclose : ((passage.text "\n").tag (.closing name)).text (indent depth) =
      Passage.before ⟨indent depth, []⟩ ((passage.text "\n").tag (.closing name)).tags := by
    simp [Passage.text, Passage.tag, Passage.before]
  rw [Node.scan, hclose, Node.scanAll_before]
  exact spans_element hinner attributes (passage.text "\n")

end BillOfMaterials.Markup
