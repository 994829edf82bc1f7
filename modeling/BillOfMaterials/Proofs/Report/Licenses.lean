import BillOfMaterials.Proofs.Report.SpdxRdf

/-! # Licenses in RDF are read back

    What is written of a license holds the license: a tree is decoded from the element of
    its property.

    * `LeafParts.text_ofText`: the parts of a leaf make up its text.
    * `ofProperty?` decodes the element of a property, `ofMarkup?` a text.
    * `ofProperty?_license` is the round trip for elements, by induction on the tree.
    * `license_decoded` is the round trip for texts; so no two trees are written alike. -/

namespace BillOfMaterials

open Text

/-! ## The parts of a leaf -/

/-- The license with its or-later mark. -/
def LeafParts.license (parts : LeafParts) : String :=
  if parts.orLater then parts.id ++ "+" else parts.id

/-- The text that has these parts. -/
def LeafParts.text (parts : LeafParts) : String :=
  match parts.exception? with
  | some exception => parts.license ++ " WITH " ++ exception
  | none => parts.license

theorem LeafParts.license_stripOrLater (license : List Char) (exception? : Option String) :
    (LeafParts.mk (String.ofList (stripOrLater license).1) (stripOrLater license).2
      exception?).license = String.ofList license := by
  unfold stripOrLater
  split
  · next hlast =>
    obtain ⟨front, rfl⟩ := List.getLast?_eq_some_iff.1 hlast
    simp [LeafParts.license]
  · rfl

/-- The parts of a leaf make up its text. -/
theorem LeafParts.text_ofText (text : String) : (LeafParts.ofText text).text = text := by
  cases hcut : cutAt withSeparator.toList text.toList with
  | none =>
    have hparts : LeafParts.ofText text = ⟨String.ofList (stripOrLater text.toList).1,
        (stripOrLater text.toList).2, none⟩ := by
      simp only [LeafParts.ofText, hcut]
    rw [hparts, LeafParts.text, LeafParts.license_stripOrLater, String.ofList_toList]
  | some cut =>
    obtain ⟨license, exception⟩ := cut
    have hparts : LeafParts.ofText text = ⟨String.ofList (stripOrLater license).1,
        (stripOrLater license).2, some (String.ofList exception)⟩ := by
      simp only [LeafParts.ofText, hcut]
    have hlist := append_of_cutAt hcut
    rw [hparts, LeafParts.text, LeafParts.license_stripOrLater, ← String.toList_inj]
    simpa [withSeparator] using hlist

namespace Report.SpdxRdf

open Markup Spdx

/-! ## Decoding -/

/-- What stands in a text between a beginning and an end. -/
def between? (start stop text : String) : Option String :=
  let rest := text.toList.drop start.toList.length
  if start.toList.isPrefixOf text.toList && stop.toList.isSuffixOf rest then
    some (String.ofList (rest.take (rest.length - stop.toList.length)))
  else none

theorem between?_append (start middle stop : String) :
    between? start stop (start ++ middle ++ stop) = some middle := by
  simp [between?]

/-- The license that a property refers to. -/
def idOf? (property : Element) : Option String :=
  (property.attributes.lookup "rdf:resource").bind (between? "http://spdx.org/licenses/" "")

/-- The exception that a property refers to. -/
def exceptionOf? (property : Element) : Option String :=
  (property.attributes.lookup "rdf:resource").bind (between? "http://spdx.org/licenses/" ".html")

/-- The license of an or-later operator, with the or-later mark. -/
def orLaterOf? (operator : Element) : Option String :=
  match operator.name, operator.children with
  | "spdx:OrLaterOperator", [member] =>
    if member.name = "spdx:member" then (idOf? member).map (· ++ "+") else none
  | _, _ => none

/-- The license of a property that holds no exception: the one that it refers to, or
    that of an or-later operator. -/
def licenseOf? (property : Element) : Option String :=
  match property.children with
  | [] => idOf? property
  | [operator] => orLaterOf? operator
  | _ => none

/-- The leaf that an operator stands for. -/
def leafOf? (operator : Element) : Option String :=
  match operator.name, operator.children with
  | "spdx:WithExceptionOperator", [member, exception] =>
    if member.name = "spdx:member" ∧ exception.name = "spdx:licenseException" then do
      some ((← licenseOf? member) ++ " WITH " ++ (← exceptionOf? exception))
    else none
  | _, _ => orLaterOf? operator

mutual

/-- The license that a property holds. -/
def ofProperty? : Element → Option License
  | ⟨name, attributes, text, []⟩ => (idOf? ⟨name, attributes, text, []⟩).map .leaf
  | ⟨_, _, _, [operator]⟩ => ofOperator? operator
  | _ => none

def ofOperator? : Element → Option License
  | ⟨"spdx:ConjunctiveLicenseSet", _, _, members⟩ => (ofMembers? members).map (.set .all)
  | ⟨"spdx:DisjunctiveLicenseSet", _, _, members⟩ => (ofMembers? members).map (.set .any)
  | operator => (leafOf? operator).map .leaf

/-- The licenses of members in order. -/
def ofMembers? : List Element → Option (List License)
  | [] => some []
  | member :: rest =>
    if member.name = "spdx:member" then do
      some ((← ofProperty? member) :: (← ofMembers? rest))
    else none

end

/-! ## Round trips -/

theorem idOf?_licenseUri (property id : String) :
    idOf? (.bare property [(resourceAttribute, licenseUri id)]) = some id := by
  have hbetween := between?_append "http://spdx.org/licenses/" id ""
  rw [String.append_empty] at hbetween
  exact hbetween

theorem exceptionOf?_exceptionUri (property exception : String) :
    exceptionOf? (.bare property [(resourceAttribute, exceptionUri exception)]) = some exception :=
  between?_append "http://spdx.org/licenses/" exception ".html"

theorem exists_orLater (id : String) (depth : Nat) : ∃ element,
    (orLater id).elements depth = [element] ∧ element.name = "spdx:OrLaterOperator" ∧
      orLaterOf? element = some (id ++ "+") := by
  refine ⟨_, Node.elements_block depth _ _ _, rfl, ?_⟩
  simp [Element.ofBlock, orLaterOf?, idOf?_licenseUri]

theorem exists_baseMember (parts : LeafParts) (depth : Nat) : ∃ element,
    (baseMember parts).elements depth = [element] ∧ element.name = "spdx:member" ∧
      licenseOf? element = some parts.license := by
  rw [baseMember, LeafParts.license]
  split
  · obtain ⟨operator, hoperator, -, htext⟩ := exists_orLater parts.id (depth + 1)
    refine ⟨_, Node.elements_block depth _ _ _, rfl, ?_⟩
    simp [Element.ofBlock, licenseOf?, hoperator, htext]
  · exact ⟨_, Node.elements_resource depth _ _, rfl, idOf?_licenseUri _ parts.id⟩

/-- An operator stands for the leaf that has these parts, if they are not a license
    alone. -/
theorem exists_leafOperator {parts : LeafParts}
    (h : (parts.exception?.isNone && !parts.orLater) = false) (depth : Nat) : ∃ element,
    (leafOperator parts).elements depth = [element] ∧
      ofOperator? element = some (.leaf parts.text) := by
  rw [leafOperator, LeafParts.text]
  cases hexception : parts.exception? with
  | some exception =>
    obtain ⟨member, hmember, hname, hlicense⟩ := exists_baseMember parts (depth + 1)
    refine ⟨_, Node.elements_block depth _ _ _, ?_⟩
    simp [Element.ofBlock, ofOperator?, leafOf?, hmember, hname, hlicense,
      exceptionOf?_exceptionUri]
  | none =>
    have horLater : parts.orLater = true := by simpa [hexception] using h
    obtain ⟨⟨name, attributes, text, children⟩, helement, hname, htext⟩ :=
      exists_orLater parts.id depth
    subst hname
    refine ⟨_, helement, ?_⟩
    simp [ofOperator?, leafOf?, htext, LeafParts.license, horLater]

theorem exists_leaf (property : String) (parts : LeafParts) (depth : Nat) : ∃ element,
    (leaf property parts).elements depth = [element] ∧ element.name = property ∧
      ofProperty? element = some (.leaf parts.text) := by
  rw [leaf]
  cases hplain : parts.exception?.isNone && !parts.orLater with
  | true =>
    -- The property refers to the license itself.
    have htext : parts.text = parts.id := by
      simp only [Bool.and_eq_true, Option.isNone_iff_eq_none, Bool.not_eq_true'] at hplain
      simp [LeafParts.text, LeafParts.license, hplain.1, hplain.2]
    have hid := idOf?_licenseUri property parts.id
    refine ⟨_, Node.elements_resource depth _ _, rfl, ?_⟩
    rw [Element.bare] at hid ⊢
    rw [ofProperty?, hid, htext, Option.map_some]
  | false =>
    obtain ⟨operator, hoperator, htree⟩ := exists_leafOperator hplain (depth + 1)
    refine ⟨_, Node.elements_block depth _ _ _, rfl, ?_⟩
    simp [Element.ofBlock, hoperator, ofProperty?, htree]

mutual

/-- **Elements.** The element of a property with a license is decoded to the license. -/
theorem ofProperty?_license (property : String) : ∀ (tree : License) (depth : Nat),
    ∃ element, (license property tree).elements depth = [element] ∧ element.name = property ∧
      ofProperty? element = some tree
  | .leaf text, depth => by
    have hleaf := exists_leaf property (.ofText text) depth
    rwa [LeafParts.text_ofText, ← license] at hleaf
  | .set polarity parts, depth => by
    -- The members stand in the set's element, which stands in the property.
    have hmembers := ofMembers?_members parts (depth + 2)
    rw [license]
    refine ⟨_, Node.elements_block depth _ _ _, rfl, ?_⟩
    cases polarity <;>
      simp [Element.ofBlock, ofProperty?, setElement, ofOperator?, hmembers]

theorem ofMembers?_members : ∀ (parts : List License) (depth : Nat),
    ofMembers? ((members parts).flatMap (Node.elements depth)) = some parts
  | [], depth => by simp [members, ofMembers?]
  | part :: rest, depth => by
    obtain ⟨element, helement, hname, hpart⟩ := ofProperty?_license "spdx:member" part depth
    have hrest := ofMembers?_members rest depth
    simp [members, helement, ofMembers?, hname, hpart, hrest]

end

/-- The license that a text holds. -/
def ofMarkup? (text : String) : Option License := (read? text).bind ofProperty?

theorem isNamed_license {property : String} (h : isName property.toList) (tree : License) :
    (license property tree).isNamed := by
  cases tree with
  | leaf text =>
    rw [license, leaf]
    split
    · rw [Node.isNamed_resource, h]
    · simp [h, (isLicense_leafOperator _).isNamed, areNamed]
  | set polarity parts =>
    have hset : IsLicense (.block (setElement polarity) [] (members parts)) :=
      .block (setElement_mem polarity) (isLicense_members parts)
    rw [license, Node.isNamed_block, h, List.all_cons, hset.isNamed]
    rfl

theorem isClosed_license (property : String) (tree : License) :
    (license property tree).isClosed := by
  cases tree with
  | leaf text =>
    rw [license, leaf]
    split
    · exact Node.isClosed_resource _ _
    · simp [(isLicense_leafOperator _).isClosed]
  | set polarity parts =>
    have hset : IsLicense (.block (setElement polarity) [] (members parts)) :=
      .block (setElement_mem polarity) (isLicense_members parts)
    rw [license, Node.isClosed_block, List.all_cons, hset.isClosed]
    rfl

/-- Around the element of a license stands only the layout of its lines. -/
theorem isAllBlank_ownText_license (property : String) (tree : License) (depth : Nat) :
    isAllBlank ((license property tree).ownText depth).toList := by
  have hlayout : isAllBlank (indent depth ++ "\n").toList := by
    have hblank : isBlank ' ' ∧ isBlank '\n' := by decide
    simp [isAllBlank, indent, hblank]
  cases tree with
  | leaf text =>
    rw [license, leaf]
    split
    · simpa [Node.resource, Node.ownText, Inline.ownText] using hlayout
    · exact hlayout
  | set polarity parts =>
    rw [license]
    exact hlayout

theorem ofMarkup?_render {property : String} (h : isName property.toList) (depth : Nat)
    (tree : License) : ofMarkup? ((license property tree).render depth) = some tree := by
  obtain ⟨element, helement, -, htree⟩ := ofProperty?_license property tree depth
  have hread := read?_node (isNamed_license h tree) (isClosed_license property tree) helement
    (isAllBlank_ownText_license property tree depth)
  rw [ofMarkup?, hread, Option.bind_some, htree]

/-- **Licenses in RDF.** What is written of a license, under any property and at any
    depth, is decoded to the license; no other license is written alike. -/
theorem license_decoded {property : String} (h : isName property.toList) (depth : Nat)
    (tree : License) : ofMarkup? ((license property tree).render depth) = some tree ∧
      ∀ (other : License) (property' : String) (depth' : Nat), isName property'.toList →
        (license property' other).render depth' = (license property tree).render depth →
        other = tree := by
  have htree := ofMarkup?_render h depth tree
  refine ⟨htree, ?_⟩
  intro other property' depth' h' hrender
  have hother := ofMarkup?_render h' depth' other
  rw [hrender, htree] at hother
  exact (Option.some.inj hother).symm

/-- Sets in a set, an or-later license with an exception, and texts with characters of
    markup. -/
theorem license_decoded_nested :
    let tree : License := .set .any [.leaf "GPL-2.0+ WITH Classpath",
      .set .all [.leaf "</spdx:member>", .leaf "a&b+", .set .any []]]
    isName "spdx:licenseDeclared".toList ∧
      ofMarkup? ((license "spdx:licenseDeclared" tree).render 6) = some tree ∧
      ∀ (other : License) (property' : String) (depth' : Nat), isName property'.toList →
        (license property' other).render depth' = (license "spdx:licenseDeclared" tree).render 6 →
        other = tree :=
  ⟨by decide, license_decoded (by decide) 6 _⟩

end Report.SpdxRdf

end BillOfMaterials
