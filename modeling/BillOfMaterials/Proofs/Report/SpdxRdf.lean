import BillOfMaterials.Proofs.Report.Xml
import BillOfMaterials.Report.SpdxRdf

/-! # The RDF report can be read

    * `IsLicense` are the nodes that licenses are written with: elements of a few
      names that hold each other and refer to resources.  Every license is
      (`isLicense_license`), so what is to be shown of all licenses is shown by
      induction on this predicate.
    * `read?_render`: reading the report gives its root.
    * `named_root`: the packages in it are those of the document, in order. -/

namespace BillOfMaterials.Report

/-! ## Declared licenses -/

namespace Spdx

/-- What is declared is told by what the license list is read as. -/
theorem ofList_cases (licenses : List String) :
    (∃ tree, (LicenseInput.anyOf licenses).parse = some tree ∧
      DeclaredLicense.ofList licenses = .expression tree) ∨
    (LicenseInput.anyOf licenses).parse = none ∧
      (DeclaredLicense.ofList licenses = .none ∨ DeclaredLicense.ofList licenses = .noAssertion) := by
  cases licenses with
  | nil => exact .inr ⟨rfl, .inl rfl⟩
  | cons first rest =>
    cases hparse : (LicenseInput.anyOf (first :: rest)).parse with
    | some tree =>
      have hdeclared : DeclaredLicense.ofList (first :: rest) = .expression tree := by
        rw [DeclaredLicense.ofList, hparse]
        rfl
      exact .inl ⟨tree, rfl, hdeclared⟩
    | none =>
      have hdeclared : DeclaredLicense.ofList (first :: rest) = .noAssertion := by
        rw [DeclaredLicense.ofList, hparse]
        rfl
      exact .inr ⟨rfl, .inr hdeclared⟩

end Spdx

namespace SpdxRdf

open Markup Spdx

/-! ## Licenses -/

/-- The elements that licenses are written with. -/
def licenseElements : List String :=
  [ "spdx:licenseDeclared", "spdx:licenseConcluded", "spdx:member", "spdx:licenseException",
    "spdx:OrLaterOperator", "spdx:WithExceptionOperator", "spdx:ConjunctiveLicenseSet",
    "spdx:DisjunctiveLicenseSet" ]

inductive IsLicense : Node → Prop where
  | resource {name uri : String} : name ∈ licenseElements → IsLicense (.resource name uri)
  | block {name : String} {contents : List Node} : name ∈ licenseElements →
      (∀ node ∈ contents, IsLicense node) → IsLicense (.block name [] contents)

theorem IsLicense.single {name : String} {node : Node} (hname : name ∈ licenseElements)
    (h : IsLicense node) : IsLicense (.block name [] [node]) := by
  apply IsLicense.block hname
  simpa using h

theorem isLicense_orLater (id : String) : IsLicense (orLater id) :=
  .single (by decide) (.resource (by decide))

theorem isLicense_baseMember (parts : LeafParts) : IsLicense (baseMember parts) := by
  unfold baseMember
  split
  · exact .single (by decide) (isLicense_orLater parts.id)
  · exact .resource (by decide)

theorem isLicense_leafOperator (parts : LeafParts) : IsLicense (leafOperator parts) := by
  unfold leafOperator
  split
  · next exception _ =>
    apply IsLicense.block (by decide)
    have hexception : IsLicense (.resource "spdx:licenseException" (exceptionUri exception)) :=
      .resource (by decide)
    simpa using ⟨isLicense_baseMember parts, hexception⟩
  · exact isLicense_orLater parts.id

theorem isLicense_leaf {property : String} (h : property ∈ licenseElements) (parts : LeafParts) :
    IsLicense (leaf property parts) := by
  unfold leaf
  split
  · exact .resource h
  · exact .single h (isLicense_leafOperator parts)

theorem setElement_mem (polarity : Polarity) : setElement polarity ∈ licenseElements := by
  cases polarity <;> decide

mutual

theorem isLicense_license {property : String} (h : property ∈ licenseElements) :
    ∀ tree : License, IsLicense (license property tree)
  | .leaf text => by
    rw [license]
    exact isLicense_leaf h (.ofText text)
  | .set polarity parts => by
    rw [license]
    exact .single h (.block (setElement_mem polarity) (isLicense_members parts))

theorem isLicense_members : ∀ parts : List License, ∀ node ∈ members parts, IsLicense node
  | [] => by simp [members]
  | part :: rest => by
    have hpart : IsLicense (license "spdx:member" part) := isLicense_license (by decide) part
    have hrest := isLicense_members rest
    simpa [members] using ⟨hpart, hrest⟩

end

theorem isLicense_licenseNodes (declared : DeclaredLicense) :
    ∀ node ∈ licenseNodes declared, IsLicense node := by
  have hdeclared : ∀ uri, IsLicense (.resource "spdx:licenseDeclared" uri) :=
    fun _ => .resource (by decide)
  have hconcluded : ∀ uri, IsLicense (.resource "spdx:licenseConcluded" uri) :=
    fun _ => .resource (by decide)
  cases declared with
  | none => simpa [licenseNodes] using ⟨hdeclared termNone, hconcluded termNone⟩
  | noAssertion =>
    simpa [licenseNodes] using ⟨hdeclared termNoAssertion, hconcluded termNoAssertion⟩
  | expression tree =>
    have htree : IsLicense (license "spdx:licenseDeclared" tree) :=
      isLicense_license (by decide) tree
    simpa [licenseNodes] using ⟨htree, hconcluded termNoAssertion⟩

theorem IsLicense.isNamed {node : Node} (h : IsLicense node) : node.isNamed := by
  have hname : ∀ name ∈ licenseElements, isName name.toList := by decide
  induction h with
  | resource hmem => rw [Node.isNamed_resource, hname _ hmem]
  | block hmem _ ih =>
    rw [Node.isNamed_block, hname _ hmem, List.all_eq_true.2 ih]
    rfl

theorem IsLicense.isClosed {node : Node} (h : IsLicense node) : node.isClosed := by
  induction h with
  | resource => simp
  | block _ _ ih =>
    rw [Node.isClosed_block]
    exact List.all_eq_true.2 ih

/-- No other element is written with a license, whatever its texts are. -/
theorem IsLicense.named_eq_nil {node : Node} (h : IsLicense node) {name : String}
    (hname : name ∉ licenseElements) (depth : Nat) : node.named name depth = [] := by
  have hne : ∀ own ∈ licenseElements, own ≠ name := by
    rintro own hown rfl
    exact hname hown
  induction h generalizing depth with
  | resource hmem => exact Node.named_resource (hne _ hmem) depth _
  | block hmem _ ih =>
    rw [Node.named_block, Element.named_ofBlock_of_ne (hne _ hmem), List.flatMap_eq_nil_iff]
    intro node hnode
    exact ih node hnode (depth + 1)

/-! ## The parts of the report -/

/-- What stands in the element of a package. -/
def parts (record : Record) : List Node :=
  [ .text "spdx:specVersion" version,
    .text "spdx:name" record.name,
    .text "spdx:versionInfo" record.version,
    downloadLocation record.site?,
    .text "spdx:filesAnalyzed" "false" ] ++
  licenseNodes (.ofList record.licenses)

theorem package_eq (base : String) (record : Record) : package base record =
    .block "spdx:Package" [("rdf:about", base ++ "#" ++ packageId record.name)] (parts record) :=
  rfl

/-- What stands in the element of the document in front of its packages. -/
def preamble (metadata : Metadata) : List Node :=
  [ .text "spdx:specVersion" version,
    .resource "spdx:dataLicense" (licenseUri dataLicense),
    .text "spdx:name" metadata.projectId,
    .block "spdx:creationInfo" []
      [ .block "spdx:CreationInfo" []
          [ .text "spdx:created" metadata.datetime,
            .text "spdx:creator" (creator metadata),
            .text "spdx:licenseListVersion" licenseListVersion ] ] ]

/-- The name spaces of the root. -/
def nameSpaces : List Attribute :=
  [ ("xmlns:rdf", "http://www.w3.org/1999/02/22-rdf-syntax-ns#"),
    ("xmlns:spdx", "http://spdx.org/rdf/terms#"),
    ("xmlns:rdfs", "http://www.w3.org/2000/01/rdf-schema#") ]

/-- The element that holds the report. -/
def documentNode (document : Document) : Node :=
  let base := documentNamespace document.metadata
  .block "spdx:SpdxDocument" [("rdf:about", base ++ "#" ++ documentId)]
    (preamble document.metadata ++ document.records.map (relationship base))

theorem root_eq (document : Document) :
    root document = .block "rdf:RDF" nameSpaces [documentNode document] := rfl

/-! ## The report can be read -/

theorem isNamed_downloadLocation (site? : Option String) : (downloadLocation site?).isNamed := by
  unfold downloadLocation
  split <;> rfl

theorem isNamed_package (base : String) (record : Record) : (package base record).isNamed := by
  have hlicenses : (licenseNodes (.ofList record.licenses)).all Node.isNamed :=
    List.all_eq_true.2 fun node hnode => (isLicense_licenseNodes _ node hnode).isNamed
  have hparts : (parts record).all Node.isNamed := by
    rw [parts, List.all_append, hlicenses, Bool.and_true]
    simp only [List.all_cons, isNamed_downloadLocation]
    rfl
  rw [package_eq, Node.isNamed_block, hparts]
  rfl

theorem isNamed_relationship (base : String) (record : Record) :
    (relationship base record).isNamed := by
  simp only [relationship, Node.isNamed_block, List.all_cons, isNamed_package]
  rfl

theorem isNamed_root (document : Document) : (root document).isNamed := by
  have hrelationships : (document.records.map
      (relationship (documentNamespace document.metadata))).all Node.isNamed := by
    simp only [List.all_map, List.all_eq_true]
    intro record _
    exact isNamed_relationship _ record
  simp only [root_eq, documentNode, Node.isNamed_block, List.all_cons, List.all_append,
    hrelationships]
  rfl

theorem isClosed_downloadLocation (site? : Option String) : (downloadLocation site?).isClosed := by
  unfold downloadLocation
  split <;> simp

theorem isClosed_package (base : String) (record : Record) : (package base record).isClosed := by
  have hlicenses : (licenseNodes (.ofList record.licenses)).all Node.isClosed :=
    List.all_eq_true.2 fun node hnode => (isLicense_licenseNodes _ node hnode).isClosed
  simp [package_eq, parts, isClosed_downloadLocation, hlicenses]

theorem isClosed_root (document : Document) : (root document).isClosed := by
  simp [root_eq, documentNode, preamble, relationship, isClosed_package]

theorem read?_render (document : Document) : read? (render document) =
    some (.ofBlock 0 "rdf:RDF" nameSpaces [documentNode document]) := by
  rw [render, root_eq]
  exact Xml.read?_declared (isNamed_root document) (isClosed_root document)

/-! ## Packages -/

/-- The element of a package. -/
def packageElement (base : String) (record : Record) : Element :=
  .ofBlock 5 "spdx:Package" [("rdf:about", base ++ "#" ++ packageId record.name)] (parts record)

theorem named_package (base : String) (record : Record) :
    (package base record).named "spdx:Package" 5 = [packageElement base record] := by
  have hlicenses : ∀ depth, (licenseNodes (.ofList record.licenses)).flatMap
      (Node.named "spdx:Package" depth) = [] := by
    intro depth
    rw [List.flatMap_eq_nil_iff]
    intro node hnode
    exact (isLicense_licenseNodes _ node hnode).named_eq_nil (by decide) depth
  have hlocation : (downloadLocation record.site?).named "spdx:Package" 6 = [] := by
    unfold downloadLocation
    split
    · exact Node.named_text (by decide) 6 _ _
    · exact Node.named_resource (by decide) 6 _
  have hparts : (parts record).flatMap (Node.named "spdx:Package" 6) = [] := by
    rw [parts, List.flatMap_append, hlicenses, List.append_nil]
    simp [hlocation, Node.named_text]
  rw [package_eq, Node.named_block, Element.named_ofBlock_of_eq rfl, hparts]
  rfl

theorem named_relationship (base : String) (record : Record) :
    (relationship base record).named "spdx:Package" 2 = [packageElement base record] := by
  simp [relationship, Node.named_block, Element.named_ofBlock_of_ne, Node.named_resource,
    named_package]

/-- The packages in the report are those of the document, in order. -/
theorem named_root (document : Document) :
    (Element.ofBlock 0 "rdf:RDF" nameSpaces [documentNode document]).named "spdx:Package" =
      document.records.map (packageElement (documentNamespace document.metadata)) := by
  have hpreamble : (preamble document.metadata).flatMap (Node.named "spdx:Package" 2) = [] := by
    simp [preamble, Node.named_block, Element.named_ofBlock_of_ne, Node.named_text,
      Node.named_resource]
  have hrelationships : (document.records.map
      (relationship (documentNamespace document.metadata))).flatMap (Node.named "spdx:Package" 2) =
      document.records.map (packageElement (documentNamespace document.metadata)) := by
    simp only [List.flatMap_map, named_relationship]
    exact List.map_eq_flatMap.symm
  simp [documentNode, Node.named_block, Element.named_ofBlock_of_ne, hpreamble, hrelationships]

end SpdxRdf

end BillOfMaterials.Report
