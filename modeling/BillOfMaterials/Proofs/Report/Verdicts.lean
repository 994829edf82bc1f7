import BillOfMaterials.Proofs.Json.Reading
import BillOfMaterials.Proofs.Json.Values
import BillOfMaterials.Proofs.License.Members
import BillOfMaterials.Proofs.License.RoundTrip
import BillOfMaterials.Proofs.Report.SpdxRdf
import BillOfMaterials.Report.SpdxJson

/-! # What both SPDX reports say of licenses

    Where a package has no licenses, or licenses that form no expression, one report
    writes a word and the other refers to a term.  The word may also be an expression:
    a license of that name, to which the other report refers as a license.

    * `Verdict` has a word in one report and a term in the other.
    * `Normal.render_eq_identifier_iff`: only a leaf is written as one identifier.
    * `Element.resources` are the resources that a property refers to.
    * `verdicts_agree`: the word and the term stand for the same packages, apart from
      those whose licenses are read as a license named like the word. -/

namespace BillOfMaterials

open Report Spdx

/-! ## Words that are written -/

theorem License.parse_identifier (name : License.Identifier) :
    parse name.text = some (.leaf name.text) := by
  rw [parse, scan_identifier]
  rfl

/-- Only a leaf is written as one identifier. -/
theorem License.Normal.render_eq_identifier_iff {tree : License} (h : Normal tree)
    (name : License.Identifier) : tree.render = name.text ↔ tree = .leaf name.text := by
  constructor
  · intro hrender
    have hread : parse tree.render = some tree := Stacks.ofTokens_eq_some_iff.2 h.treesOf_render
    rw [hrender, parse_identifier] at hread
    exact (Option.some.inj hread).symm
  · rintro rfl
    exact render_leaf name.text

/-! ## Resources -/

/-- The resources that the properties of a name refer to, for each property that is
    there. -/
def Markup.Element.resources (property : String) (element : Markup.Element) :
    List (Option String) :=
  (element.children.filter (·.name = property)).map (·.attributes.lookup Markup.resourceAttribute)

namespace Report.SpdxRdf

open Markup

/-- The resource that a property with this license refers to. -/
def resource? : License → Option String
  | .leaf text =>
    let parts := LeafParts.ofText text
    if parts.exception?.isNone && !parts.orLater then some (licenseUri parts.id) else none
  | .set _ _ => none

/-- A property with a license is one element. -/
theorem elements_license (property : String) (tree : License) (depth : Nat) :
    ∃ element, (license property tree).elements depth = [element] ∧ element.name = property ∧
      element.attributes.lookup resourceAttribute = resource? tree := by
  cases tree with
  | leaf text =>
    rw [license, leaf, resource?]
    split
    · exact ⟨_, Node.elements_resource depth property _, rfl, rfl⟩
    · exact ⟨_, Node.elements_block depth property [] _, rfl, rfl⟩
  | set p parts =>
    rw [license]
    exact ⟨_, Node.elements_block depth property [] _, rfl, rfl⟩

/-- The resource that the property for the declared license refers to. -/
def declaredResource? : DeclaredLicense → Option String
  | .none => some termNone
  | .noAssertion => some termNoAssertion
  | .expression tree => resource? tree

def concludedResource? : DeclaredLicense → Option String
  | .none => some termNone
  | .noAssertion | .expression _ => some termNoAssertion

theorem elements_licenseNodes (declared : DeclaredLicense) (depth : Nat) :
    ∃ first second, (licenseNodes declared).flatMap (Node.elements depth) = [first, second] ∧
      first.name = "spdx:licenseDeclared" ∧ second.name = "spdx:licenseConcluded" ∧
      first.attributes.lookup resourceAttribute = declaredResource? declared ∧
      second.attributes.lookup resourceAttribute = concludedResource? declared := by
  cases declared with
  | none | noAssertion =>
    simp only [licenseNodes, List.flatMap_cons, List.flatMap_nil, Node.elements_resource]
    exact ⟨_, _, rfl, rfl, rfl, rfl, rfl⟩
  | expression tree =>
    obtain ⟨element, helements, hname, hresource⟩ :=
      elements_license "spdx:licenseDeclared" tree depth
    simp only [licenseNodes, List.flatMap_cons, List.flatMap_nil, Node.elements_resource,
      helements]
    exact ⟨_, _, rfl, hname, rfl, hresource, rfl⟩

theorem elements_downloadLocation (site? : Option String) (depth : Nat) :
    ∃ element, (downloadLocation site?).elements depth = [element] ∧
      element.name = "spdx:downloadLocation" := by
  unfold downloadLocation
  split
  · exact ⟨_, Node.elements_text depth _ _ _, rfl⟩
  · exact ⟨_, Node.elements_resource depth _ _, rfl⟩

/-- A package has one property for each license, and it refers to this. -/
theorem resources_packageElement (base : String) (record : Record) :
    (packageElement base record).resources "spdx:licenseDeclared" =
        [declaredResource? (.ofList record.licenses)] ∧
      (packageElement base record).resources "spdx:licenseConcluded" =
        [concludedResource? (.ofList record.licenses)] := by
  obtain ⟨location, hlocation, hname⟩ := elements_downloadLocation record.site? 6
  obtain ⟨first, second, hlicenses, hfirst, hsecond, hdeclared, hconcluded⟩ :=
    elements_licenseNodes (.ofList record.licenses) 6
  have hchildren : (packageElement base record).children =
      [ Xml.textElement "spdx:specVersion" version,
        Xml.textElement "spdx:name" record.name,
        Xml.textElement "spdx:versionInfo" record.version,
        location,
        Xml.textElement "spdx:filesAnalyzed" "false" ] ++ [first, second] := by
    rw [packageElement, Element.ofBlock, parts, List.flatMap_append, hlicenses]
    simp [hlocation, Xml.textElement]
  simp [Element.resources, hchildren, Xml.textElement, hname, hfirst, hsecond, hdeclared,
    hconcluded]

end Report.SpdxRdf

/-! ## Verdicts -/

/-- What is said of a package without a license expression. -/
inductive Verdict where
  /-- There are no licenses. -/
  | noLicense
  /-- The licenses form no expression. -/
  | noAssertion

namespace Verdict

/-- The word for it in JSON. -/
def word : Verdict → String
  | noLicense => SpdxJson.noneText
  | noAssertion => SpdxJson.noAssertionText

/-- The resource that stands for it in RDF. -/
def term : Verdict → String
  | noLicense => SpdxRdf.termNone
  | noAssertion => SpdxRdf.termNoAssertion

theorem isIdentifier_word (verdict : Verdict) : License.IsIdentifier verdict.word := by
  cases verdict <;> decide

theorem licenseUri_ne_term (id : String) (verdict : Verdict) :
    SpdxRdf.licenseUri id ≠ verdict.term := by
  intro h
  have hlist : (SpdxRdf.licenseUri id).toList = SpdxRdf.licensesBase.toList ++ id.toList := by
    simp [SpdxRdf.licenseUri]
  rw [h] at hlist
  -- The characters after the host differ.
  have hchar : 'r' = 'l' := by
    cases verdict <;> exact Option.some.inj (congrArg (·[16]?) hlist)
  exact absurd hchar (by decide)

/-- No license is referred to as a term. -/
theorem resource?_ne_term (tree : License) (verdict : Verdict) :
    SpdxRdf.resource? tree ≠ some verdict.term := by
  intro h
  cases tree with
  | leaf text =>
    simp only [SpdxRdf.resource?] at h
    split at h
    · exact licenseUri_ne_term _ verdict (Option.some.inj h)
    · cases h
  | set p parts => cases h

theorem concluded_iff (verdict : Verdict) (declared : DeclaredLicense) :
    (SpdxJson.licenseTexts declared).2 = verdict.word ↔
      SpdxRdf.concludedResource? declared = some verdict.term := by
  cases declared <;> cases verdict <;> simp only [SpdxJson.licenseTexts, SpdxRdf.concludedResource?]
    <;> decide

/-- The word and the term stand for the same declarations, if the licenses are not read
    as the license that is named like the word. -/
theorem declared_iff (verdict : Verdict) {licenses : List String}
    (h : (LicenseInput.anyOf licenses).parse ≠ some (.leaf verdict.word)) :
    (SpdxJson.licenseTexts (.ofList licenses)).1 = verdict.word ↔
      SpdxRdf.declaredResource? (.ofList licenses) = some verdict.term := by
  rcases ofList_cases licenses with ⟨tree, htree, hdeclared⟩ | ⟨-, hdeclared | hdeclared⟩
  · have hnormal := LicenseInput.normal_of_parse htree
    have hrender : tree.render ≠ verdict.word := by
      rw [Ne, hnormal.render_eq_identifier_iff ⟨verdict.word, verdict.isIdentifier_word⟩]
      rintro rfl
      exact h htree
    rw [hdeclared]
    exact iff_of_false hrender (resource?_ne_term tree verdict)
  all_goals
    rw [hdeclared]
    cases verdict <;> decide

/-- The license that is named like the word is declared as itself. -/
theorem declared_license (verdict : Verdict) {licenses : List String}
    (h : (LicenseInput.anyOf licenses).parse = some (.leaf verdict.word)) :
    (SpdxJson.licenseTexts (.ofList licenses)).1 = verdict.word ∧
      SpdxRdf.declaredResource? (.ofList licenses) = some (SpdxRdf.licenseUri verdict.word) := by
  rcases ofList_cases licenses with ⟨tree, htree, hdeclared⟩ | ⟨hnone, -⟩
  · rw [h, Option.some.injEq] at htree
    rw [hdeclared, ← htree]
    cases verdict <;> exact ⟨License.render_leaf _, by decide⟩
  · rw [h] at hnone
    cases hnone

end Verdict

/-- A package in JSON and one in RDF say the same of the licenses of a record, each in
    its own way. -/
structure SameVerdicts (record : Record) (package : Json) (element : Markup.Element) : Prop where
  concluded : ∀ verdict : Verdict,
    package.under? "licenseConcluded" Json.text? = some verdict.word ↔
      element.resources "spdx:licenseConcluded" = [some verdict.term]
  declared : ∀ verdict : Verdict,
    (LicenseInput.anyOf record.licenses).parse ≠ some (.leaf verdict.word) →
      (package.under? "licenseDeclared" Json.text? = some verdict.word ↔
        element.resources "spdx:licenseDeclared" = [some verdict.term])
  /-- A license may have the name of the word. -/
  license : ∀ verdict : Verdict,
    (LicenseInput.anyOf record.licenses).parse = some (.leaf verdict.word) →
      package.under? "licenseDeclared" Json.text? = some verdict.word ∧
        element.resources "spdx:licenseDeclared" = [some (SpdxRdf.licenseUri verdict.word)]

theorem Report.SpdxJson.under?_package (record : Record) :
    (package record).under? "licenseDeclared" Json.text? =
        some (licenseTexts (.ofList record.licenses)).1 ∧
      (package record).under? "licenseConcluded" Json.text? =
        some (licenseTexts (.ofList record.licenses)).2 := by
  rw [package]
  cases record.version.isEmpty <;> exact ⟨rfl, rfl⟩

theorem sameVerdicts (base : String) (record : Record) :
    SameVerdicts record (SpdxJson.package record) (SpdxRdf.packageElement base record) := by
  obtain ⟨hdeclared, hconcluded⟩ := SpdxJson.under?_package record
  obtain ⟨hdeclared', hconcluded'⟩ := SpdxRdf.resources_packageElement base record
  constructor
  · intro verdict
    rw [hconcluded, hconcluded', Option.some.injEq, List.singleton_inj]
    exact verdict.concluded_iff _
  · intro verdict h
    rw [hdeclared, hdeclared', Option.some.injEq, List.singleton_inj]
    exact verdict.declared_iff h
  · intro verdict h
    rw [hdeclared, hdeclared', Option.some.injEq, List.singleton_inj]
    exact verdict.declared_license h

/-- **Verdicts.** Both SPDX reports hold the packages of the document in order, and say
    the same of the licenses of each: one writes the word for a verdict just when the
    other refers to its term.  Only of licenses that are read as a license named like
    the word, one writes this word and the other refers to the license. -/
theorem verdicts_agree (document : Document) :
    ∃ value root, Json.read? (SpdxJson.render document) = some value ∧
      Markup.read? (SpdxRdf.render document) = some root ∧
      ∃ (package : Record → Json) (element : Record → Markup.Element),
        value.under? "packages" Json.items? = some (document.records.map package) ∧
        root.named "spdx:Package" = document.records.map element ∧
        ∀ record ∈ document.records, SameVerdicts record (package record) (element record) :=
  ⟨_, _, Json.read?_pretty _, SpdxRdf.read?_render document, SpdxJson.package,
    SpdxRdf.packageElement (documentNamespace document.metadata), rfl,
    SpdxRdf.named_root document, fun record _ => sameVerdicts _ record⟩

/-- A package whose one license is named `NONE`: the word stands for the license. -/
theorem verdicts_differ :
    ¬ ∀ (document : Document) (value : Json) (root : Markup.Element) (packages : List Json),
      Json.read? (SpdxJson.render document) = some value →
      Markup.read? (SpdxRdf.render document) = some root →
      value.under? "packages" Json.items? = some packages →
      List.Forall₂ (fun package element =>
        (package.under? "licenseDeclared" Json.text? = some "NONE" ↔
          element.resources "spdx:licenseDeclared" = [some "http://spdx.org/rdf/terms#none"]))
        packages (root.named "spdx:Package") := by
  intro h
  let record : Record := {
    name := "a", version := "", site? := none, install := .target, vcs := .url
    licenses := ["NONE"], hashes := .empty, uid := "" }
  let document : Document := ⟨⟨"id", "1.0.0", "project", "now"⟩, .ofRecords [record], .empty⟩
  have hpackages := h document _ _ _ (Json.read?_pretty _) (SpdxRdf.read?_render document) rfl
  rw [SpdxRdf.named_root] at hpackages
  have hiff := (List.forall₂_cons.1 hpackages).1
  obtain ⟨hdeclared, -⟩ := SpdxJson.under?_package record
  obtain ⟨hdeclared', -⟩ := SpdxRdf.resources_packageElement
    (documentNamespace document.metadata) record
  rw [hdeclared, hdeclared'] at hiff
  exact absurd hiff (by decide)

end BillOfMaterials
