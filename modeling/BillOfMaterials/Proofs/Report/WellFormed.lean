import BillOfMaterials.Proofs.Assembly.Contents
import BillOfMaterials.Proofs.Markup.WellFormed
import BillOfMaterials.Proofs.Report.SpdxRdf

/-! # When the XML reports are well-formed

    Both reports nest their elements and escape their texts, whatever the texts are.
    Characters that XML does not allow have no escape, though, so they are left as they
    are, and then the report is not well-formed.

    * `Xml.proper_root` and `SpdxRdf.proper_root`: both reports are documents.
    * `Record.xmlTexts` and `Record.rdfTexts` are the texts of a record that a report
      gives and that could hold any character.
    * `assemble_wellFormed_iff` puts this together for assembled documents;
      `not_wellFormed` is a version that cannot be written. -/

namespace BillOfMaterials

open Markup Report

/-! ## The XML report is a document -/

namespace Report.Xml

theorem proper_hash (entry : Manifest.Entry) : (hash entry).Proper :=
  .text rfl ⟨rfl, by simp⟩

theorem proper_package (record : Record) : (package record).Proper := by
  have hsite : ∀ node ∈ site record.site?, node.Proper := by
    cases record.site? with
    | none => simp [site]
    | some text => simpa [site] using Node.Proper.plain rfl text
  have hlicenses : (Node.block "licenses" []
      (record.licenses.map fun license => .text "license" license)).Proper :=
    .row rfl (fun license => .plain rfl license) record.licenses
  have hhashes : (Node.block "hashes" [] (record.hashes.entries.map hash)).Proper :=
    .row rfl proper_hash record.hashes.entries
  apply Node.Proper.block rfl (properAttributes_singleton rfl _)
  simp only [List.cons_append, List.forall_mem_cons, List.forall_mem_append]
  exact ⟨.plain rfl _, hsite, .plain rfl _, .plain rfl _, hlicenses, hhashes, .plain rfl _,
    by simp⟩

theorem proper_bucket {name : String} (hname : isName name.toList) (packages : Bucket) :
    (bucket name packages).Proper := .row hname proper_package packages.records

theorem proper_root (document : Document) : (root document).Proper := by
  have htarget : (bucket "packages" document.packages).Proper := proper_bucket rfl _
  have hhost : (bucket "host-packages" document.hostPackages).Proper := proper_bucket rfl _
  rw [root_eq]
  apply Node.Proper.block rfl ⟨rfl, by simp [attributes]⟩
  unfold buckets
  split <;> simp [htarget, hhost]

end Report.Xml

/-! ## The RDF report is a document -/

namespace Report.SpdxRdf

open Spdx

theorem IsLicense.proper {node : Node} (h : IsLicense node) : node.Proper := by
  have hname : ∀ name ∈ licenseElements, isName name.toList := by decide
  induction h with
  | resource hmem => exact .resource (hname _ hmem)
  | block hmem _ ih => exact .block (hname _ hmem) properAttributes_nil ih

theorem proper_downloadLocation (site? : Option String) : (downloadLocation site?).Proper := by
  unfold downloadLocation
  split
  · exact .plain rfl _
  · exact .resource rfl

theorem proper_package (base : String) (record : Record) : (package base record).Proper := by
  apply Node.Proper.block rfl (properAttributes_singleton rfl _)
  simp only [List.cons_append, List.nil_append, List.forall_mem_cons]
  exact ⟨.plain rfl _, .plain rfl _, .plain rfl _, proper_downloadLocation _, .plain rfl _,
    fun node hnode => (isLicense_licenseNodes _ node hnode).proper⟩

theorem proper_relationship (base : String) (record : Record) :
    (relationship base record).Proper := by
  have hrelated : (Node.block "spdx:relatedSpdxElement" [] [package base record]).Proper :=
    .single rfl (proper_package base record)
  apply Node.Proper.single rfl
  apply Node.Proper.block rfl properAttributes_nil
  simpa using ⟨.resource rfl, hrelated⟩

theorem proper_preamble (metadata : Metadata) : ∀ node ∈ preamble metadata, node.Proper := by
  simp only [preamble, List.forall_mem_cons]
  refine ⟨.plain rfl _, .resource rfl, .plain rfl _, .single rfl (.block rfl properAttributes_nil ?_),
    by simp⟩
  simp only [List.forall_mem_cons]
  exact ⟨.plain rfl _, .plain rfl _, .plain rfl _, by simp⟩

theorem proper_root (document : Document) : (root document).Proper := by
  have hdocument : (documentNode document).Proper := by
    apply Node.Proper.block rfl (properAttributes_singleton rfl _)
    simp only [List.forall_mem_append, List.forall_mem_map]
    exact ⟨proper_preamble _, fun record _ => proper_relationship _ record⟩
  rw [root_eq]
  apply Node.Proper.block rfl ⟨rfl, by simp [nameSpaces]⟩
  simpa using hdocument

end Report.SpdxRdf

/-! ## Texts of records -/

/-- The texts of a record that the XML report gives as they come. -/
def Record.xmlTexts (record : Record) : List String :=
  record.version :: (record.site?.toList ++ (record.licenses ++
    record.hashes.entries.flatMap fun entry => [entry.algorithm.render, entry.digest, entry.asset]))

/-- The texts of a record that the RDF report gives as they come: of the licenses the
    leaves of the tree, if they are read as one. -/
def Record.rdfTexts (record : Record) : List String :=
  record.version :: (record.site?.toList ++
    (LicenseInput.anyOf record.licenses).parse.elim [] License.leaves)

/-- The texts of the metadata. -/
def Metadata.texts (metadata : Metadata) : List String :=
  [metadata.reportId, metadata.toolVersion, metadata.projectId, metadata.datetime]

namespace Report.Xml

theorem areXmlTexts_site (site? : Option String) :
    AreXmlTexts ((site site?).flatMap Node.texts) ↔ AreXmlTexts site?.toList := by
  cases site? <;> simp [site]

theorem areXmlTexts_licenses (licenses : List String) :
    AreXmlTexts ((licenses.map fun license => .text "license" license).flatMap Node.texts) ↔
      AreXmlTexts licenses := by
  simp [AreXmlTexts]

theorem areXmlTexts_hashes (entries : List Manifest.Entry) :
    AreXmlTexts ((entries.map hash).flatMap Node.texts) ↔
      AreXmlTexts (entries.flatMap fun entry =>
        [entry.algorithm.render, entry.digest, entry.asset]) := by
  simp only [areXmlTexts_flatMap, List.forall_mem_map]
  refine forall₂_congr fun entry _ => ?_
  simp [hash, and_comm]

theorem areXmlTexts_package (record : Record) : AreXmlTexts (package record).texts ↔
    AreXmlTexts (record.name :: record.uid :: record.xmlTexts) := by
  have hinstall : IsXmlText record.install.name.toList := by
    cases record.install <;> decide
  have hvcs : IsXmlText record.vcs.name.toList := by
    cases record.vcs <;> decide
  simp only [package, Node.texts_block, Node.texts_text, List.map_cons, List.map_nil,
    List.flatMap_cons, List.flatMap_append, List.flatMap_nil, List.nil_append, List.cons_append,
    List.append_nil, areXmlTexts_cons, areXmlTexts_append, areXmlTexts_site, areXmlTexts_licenses,
    areXmlTexts_hashes, areXmlTexts_nil, hinstall, hvcs, true_and, and_true, Record.xmlTexts]
  -- Both sides ask for the same texts, in different orders.
  tauto

theorem areXmlTexts_bucket (name : String) (packages : Bucket) :
    AreXmlTexts (bucket name packages).texts ↔ ∀ record ∈ packages.records,
      AreXmlTexts (record.name :: record.uid :: record.xmlTexts) := by
  rw [bucket, Node.texts_block, List.map_nil, List.nil_append, areXmlTexts_flatMap,
    List.forall_mem_map]
  exact forall₂_congr fun record _ => areXmlTexts_package record

theorem areXmlTexts_root (document : Document) : AreXmlTexts (root document).texts ↔
    AreXmlTexts document.metadata.texts ∧ ∀ record ∈ document.records,
      AreXmlTexts (record.name :: record.uid :: record.xmlTexts) := by
  have htype : IsXmlText Document.type.toList := by decide
  have hschema : IsXmlText Document.schemaVersion.toList := by decide
  have hbuckets : AreXmlTexts ((buckets document).flatMap Node.texts) ↔
      ∀ record ∈ document.records, AreXmlTexts (record.name :: record.uid :: record.xmlTexts) := by
    rw [Document.records, List.forall_mem_append, ← areXmlTexts_bucket "packages",
      ← areXmlTexts_bucket "host-packages", buckets]
    split
    · next hempty => simp [bucket, List.isEmpty_iff.1 hempty]
    · simp
  rw [root_eq, Node.texts_block, areXmlTexts_append, hbuckets]
  simp [attributes, Metadata.texts, htype, hschema]

theorem isXmlText_declaration : IsXmlText (line 0 declaration).toList := by decide +kernel

/-- The report is in `Char` if and only if what it gives as it comes is. -/
theorem isXmlText_render_iff (document : Document) : IsXmlText (render document).toList ↔
    AreXmlTexts document.metadata.texts ∧ ∀ record ∈ document.records,
      AreXmlTexts (record.name :: record.uid :: record.xmlTexts) := by
  rw [render, String.toList_append, isXmlText_append, and_iff_right isXmlText_declaration,
    (proper_root document).isXmlText_render_iff, areXmlTexts_root]

end Report.Xml

/-! ## Texts of licenses -/

theorem isXmlText_stripOrLater (license : List Char) :
    IsXmlText (stripOrLater license).1 ↔ IsXmlText license := by
  unfold stripOrLater
  split
  · next hlast =>
    have hmark : IsXmlChar '+' := by decide
    obtain ⟨front, rfl⟩ := List.getLast?_eq_some_iff.1 hlast
    simp [hmark]
  · rfl

/-- The parts of a leaf leave out allowed characters only. -/
theorem isXmlText_ofText (text : String) :
    IsXmlText (LeafParts.ofText text).id.toList ∧
        AreXmlTexts (LeafParts.ofText text).exception?.toList ↔ IsXmlText text.toList := by
  have hmark : IsXmlText withSeparator.toList := by decide
  unfold LeafParts.ofText
  cases hcut : Text.cutAt withSeparator.toList text.toList with
  | none => simp [isXmlText_stripOrLater]
  | some parts =>
    obtain ⟨license, exception⟩ := parts
    rw [← Text.append_of_cutAt hcut]
    simp [isXmlText_stripOrLater, hmark]

namespace Report.SpdxRdf

open Spdx

theorem isXmlText_licenseUri (id : String) :
    IsXmlText (licenseUri id).toList ↔ IsXmlText id.toList := by
  have hbase : IsXmlText licensesBase.toList := by decide
  simp [licenseUri, hbase]

theorem isXmlText_exceptionUri (exception : String) :
    IsXmlText (exceptionUri exception).toList ↔ IsXmlText exception.toList := by
  have hbase : IsXmlText licensesBase.toList := by decide
  have hend : IsXmlText ".html".toList := by decide
  simp only [exceptionUri, String.toList_append, isXmlText_append, hbase, hend, true_and, and_true]

theorem areXmlTexts_leaf (property : String) (parts : LeafParts) :
    AreXmlTexts (leaf property parts).texts ↔
      IsXmlText parts.id.toList ∧ AreXmlTexts parts.exception?.toList := by
  obtain ⟨id, later, exception?⟩ := parts
  cases exception? <;> cases later <;>
    simp [leaf, leafOperator, baseMember, orLater, isXmlText_licenseUri, isXmlText_exceptionUri]

mutual

/-- A license is written with the texts of its leaves. -/
theorem areXmlTexts_license (property : String) : ∀ tree : License,
    AreXmlTexts (license property tree).texts ↔ AreXmlTexts tree.leaves
  | .leaf text => by
    rw [license, areXmlTexts_leaf, isXmlText_ofText, License.leaves]
    simp
  | .set p parts => by
    have hparts := areXmlTexts_members parts
    simpa [license, License.leaves] using hparts

theorem areXmlTexts_members : ∀ parts : List License,
    AreXmlTexts ((members parts).flatMap Node.texts) ↔ AreXmlTexts (License.leavesOf parts)
  | [] => by simp [members, License.leavesOf]
  | part :: rest => by
    have hpart := areXmlTexts_license "spdx:member" part
    have hrest := areXmlTexts_members rest
    rw [members, License.leavesOf, List.flatMap_cons, areXmlTexts_append, areXmlTexts_append, hpart,
      hrest]

end

/-! ## Texts of the report -/

theorem areXmlTexts_licenseNodes (licenses : List String) :
    AreXmlTexts ((licenseNodes (.ofList licenses)).flatMap Node.texts) ↔
      AreXmlTexts ((LicenseInput.anyOf licenses).parse.elim [] License.leaves) := by
  have hnone : IsXmlText termNone.toList := by decide
  have hnoAssertion : IsXmlText termNoAssertion.toList := by decide
  rcases ofList_cases licenses with ⟨tree, htree, hdeclared⟩ | ⟨htree, hdeclared | hdeclared⟩
  · rw [htree, hdeclared]
    simp [licenseNodes, areXmlTexts_license, hnoAssertion]
  · rw [htree, hdeclared]
    simp [licenseNodes, hnone]
  · rw [htree, hdeclared]
    simp [licenseNodes, hnoAssertion]

/-- An empty site is not written, nor is it needed. -/
theorem areXmlTexts_downloadLocation (site? : Option String) :
    AreXmlTexts (downloadLocation site?).texts ↔ AreXmlTexts site?.toList := by
  have hnone : IsXmlText termNone.toList := by decide
  cases site? with
  | none => simpa [downloadLocation, nonEmpty?] using hnone
  | some site =>
    by_cases hempty : site.isEmpty
    · have hnothing : nonEmpty? (some site) = none := by simp [nonEmpty?, Option.filter, hempty]
      have hsite : site = "" := String.isEmpty_iff.1 hempty
      rw [downloadLocation, hnothing, hsite]
      simp [hnone]
    · have hgiven : nonEmpty? (some site) = some site := by
        simp [nonEmpty?, Option.filter, hempty]
      rw [downloadLocation, hgiven]
      simp

theorem isXmlText_packageId (name : String) : IsXmlText (packageId name).toList := by
  have hlead : IsXmlText "SPDXRef-pkg-".toList := by decide
  have hchars : IsXmlText (name.toList.map idChar) := by
    intro c hc
    obtain ⟨d, -, rfl⟩ := List.mem_map.1 hc
    unfold idChar
    split
    · next hkept =>
      simp only [Bool.or_eq_true, beq_iff_eq] at hkept
      rcases hkept with (hletter | rfl) | rfl
      · exact isXmlChar_of_isAlphanum hletter
      · decide
      · decide
    · decide
  have hlist : (packageId name).toList = "SPDXRef-pkg-".toList ++ name.toList.map idChar := by
    simp [packageId]
  rw [hlist, isXmlText_append]
  exact ⟨hlead, hchars⟩

theorem isXmlText_about (base id : String) (h : IsXmlText id.toList) :
    IsXmlText (base ++ "#" ++ id).toList ↔ IsXmlText base.toList := by
  have hmark : IsXmlChar '#' := by decide
  simp [h, hmark]

theorem areXmlTexts_package (base : String) (record : Record) :
    AreXmlTexts (package base record).texts ↔
      IsXmlText base.toList ∧ AreXmlTexts (record.name :: record.rdfTexts) := by
  have hversion : IsXmlText version.toList := by decide
  have hfalse : IsXmlText "false".toList := by decide
  have habout := isXmlText_about base _ (isXmlText_packageId record.name)
  simp only [package, Node.texts_block, Node.texts_text, List.map_cons, List.map_nil,
    List.flatMap_cons, List.nil_append, List.cons_append, areXmlTexts_cons, areXmlTexts_append,
    areXmlTexts_downloadLocation, areXmlTexts_licenseNodes, hversion, hfalse, habout, true_and,
    Record.rdfTexts]

theorem areXmlTexts_relationship (base : String) (record : Record) :
    AreXmlTexts (relationship base record).texts ↔
      IsXmlText base.toList ∧ AreXmlTexts (record.name :: record.rdfTexts) := by
  have hdescribes : IsXmlText termDescribes.toList := by decide
  rw [← areXmlTexts_package]
  simp [relationship, hdescribes]

theorem isXmlText_documentNamespace (metadata : Metadata) :
    IsXmlText (documentNamespace metadata).toList ↔
      IsXmlText metadata.projectId.toList ∧ IsXmlText metadata.reportId.toList := by
  have hlead : IsXmlText "https://spdx.org/spdxdocs/".toList := by decide
  have hhyphen : IsXmlText "-".toList := by decide
  have hnamespace : documentNamespace metadata = "https://spdx.org/spdxdocs/" ++ metadata.projectId ++
      "-" ++ metadata.reportId := rfl
  rw [hnamespace]
  simp only [String.toList_append, isXmlText_append, hlead, hhyphen, true_and, and_true]

theorem areXmlTexts_preamble (metadata : Metadata) :
    AreXmlTexts ((preamble metadata).flatMap Node.texts) ↔
      AreXmlTexts [metadata.projectId, metadata.datetime, metadata.toolVersion] := by
  have hversion : IsXmlText version.toList := by decide
  have hlicense : IsXmlText (licenseUri dataLicense).toList := by decide
  have hlist : IsXmlText licenseListVersion.toList := by decide
  have hcreator : IsXmlText (creator metadata).toList ↔ IsXmlText metadata.toolVersion.toList := by
    have hlead : IsXmlText ("Tool: " ++ Identity.toolName ++ "-").toList := by decide
    rw [creator, String.toList_append, isXmlText_append, and_iff_right hlead]
  simp only [preamble, Node.texts_block, Node.texts_text, Node.texts_resource, List.map_nil,
    List.flatMap_cons, List.flatMap_nil, List.nil_append, List.append_nil, areXmlTexts_append,
    areXmlTexts_cons, areXmlTexts_nil, hversion, hlicense, hlist, hcreator, true_and, and_true]

theorem areXmlTexts_root (document : Document) : AreXmlTexts (root document).texts ↔
    AreXmlTexts document.metadata.texts ∧ ∀ record ∈ document.records,
      AreXmlTexts (record.name :: record.rdfTexts) := by
  have hnameSpaces : AreXmlTexts (nameSpaces.map Prod.snd) := by
    simp only [nameSpaces, List.map_cons, List.map_nil, areXmlTexts_cons]
    exact ⟨by decide, by decide, by decide, areXmlTexts_nil⟩
  have hid : IsXmlText documentId.toList := by decide
  have habout := isXmlText_about (documentNamespace document.metadata) _ hid
  have hrecords : AreXmlTexts ((document.records.map
      (relationship (documentNamespace document.metadata))).flatMap Node.texts) ↔
      ∀ record ∈ document.records, IsXmlText (documentNamespace document.metadata).toList ∧
        AreXmlTexts (record.name :: record.rdfTexts) := by
    rw [areXmlTexts_flatMap, List.forall_mem_map]
    exact forall₂_congr fun record _ => areXmlTexts_relationship _ record
  simp only [root_eq, documentNode, Node.texts_block, List.map_cons, List.map_nil,
    List.flatMap_cons, List.flatMap_nil, List.flatMap_append, List.append_nil, areXmlTexts_append,
    areXmlTexts_cons, areXmlTexts_nil, hnameSpaces, habout, areXmlTexts_preamble, hrecords,
    isXmlText_documentNamespace, true_and, and_true, Metadata.texts]
  -- The name space of the document stands in front of every identifier.
  constructor
  · rintro ⟨⟨hproject, hreport⟩, ⟨-, hdatetime, htool⟩, hall⟩
    exact ⟨⟨hreport, htool, hproject, hdatetime⟩, fun record hrecord => (hall record hrecord).2⟩
  · rintro ⟨⟨hreport, htool, hproject, hdatetime⟩, hall⟩
    exact ⟨⟨hproject, hreport⟩, ⟨hproject, hdatetime, htool⟩,
      fun record hrecord => ⟨⟨hproject, hreport⟩, hall record hrecord⟩⟩

/-- The report is in `Char` if and only if what it gives as it comes is. -/
theorem isXmlText_render_iff (document : Document) : IsXmlText (render document).toList ↔
    AreXmlTexts document.metadata.texts ∧ ∀ record ∈ document.records,
      AreXmlTexts (record.name :: record.rdfTexts) := by
  rw [render, String.toList_append, isXmlText_append, and_iff_right Xml.isXmlText_declaration,
    (proper_root document).isXmlText_render_iff, areXmlTexts_root]

end Report.SpdxRdf

/-! ## Texts that are made -/

theorem isXmlChar_of_isAlphanumeric {c : Char} (h : Text.isAlphanumeric c) : IsXmlChar c := by
  -- No range holds a control character, and none goes on to U+FFFE.
  have hranges : ∀ range ∈ Text.alphanumericRanges, 0x20 ≤ range.1 ∧
      (range.2 ≤ 0xFFFD ∨ 0x10000 ≤ range.1) := by decide +kernel
  obtain ⟨range, hmem, hin⟩ := List.any_eq_true.1 h
  simp only [Bool.and_eq_true, decide_eq_true_eq] at hin
  have hrange := hranges range hmem
  have hvalid : c.toNat.isValidChar := c.valid
  simp only [Nat.isValidChar] at hvalid
  unfold IsXmlChar
  omega

/-- A package's name holds allowed characters only. -/
theorem isXmlText_name (name : PackageName) : IsXmlText name.text.toList := by
  intro c hc
  have hchar := name.isNameChar_of_mem hc
  simp only [PackageName.isNameChar, Bool.or_eq_true, beq_iff_eq] at hchar
  rcases hchar with (((hchar | rfl) | rfl) | rfl) | rfl
  · exact isXmlChar_of_isAlphanumeric hchar
  all_goals decide

theorem isXmlText_hex (bytes : List UInt8) : IsXmlText (Digest.hex bytes).toList := by
  have hdigit : ∀ n < 16, IsXmlChar (Text.hexDigit n) := by decide
  rw [Digest.hex, String.toList_ofList, isXmlText_flatMap]
  intro byte _
  have hhigh : byte.toNat / 16 < 16 := by
    have := byte.toNat_lt
    omega
  simp [Text.hexByte, hdigit _ hhigh, hdigit _ (Nat.mod_lt _ _)]

theorem isXmlText_packageUid (name : String) : IsXmlText (Identity.packageUid name).toList :=
  isXmlText_hex _

theorem isXmlText_projectId (names : List String) :
    IsXmlText (Identity.projectId names).toList := by
  have hlead : IsXmlText (Identity.toolName ++ "-").toList := by decide
  have hdigits := isXmlText_hex
    (DigestKind.sha1.digest (Text.encodeUtf8 (Identity.projectText names)))
  unfold Identity.projectId
  rw [String.toList_append, isXmlText_append, String.toList_ofList]
  exact ⟨hlead, fun c hc => hdigits c (List.mem_of_mem_take hc)⟩

/-! ## Assembled documents -/

section

variable (load : Loader) (stamp : Stamp) (packages : List Package)

/-- Of the metadata, only the stamp could hold other characters. -/
theorem areXmlTexts_metadata : AreXmlTexts (assemble load stamp packages).2.metadata.texts ↔
    AreXmlTexts [stamp.reportId, stamp.datetime] := by
  have htool : IsXmlText Document.toolVersion.toList := by decide
  rw [Assembly.assemble_document]
  simp [Metadata.texts, Assembly.document, htool, isXmlText_projectId]

/-- Names and identities hold allowed characters only. -/
theorem isXmlText_of_mem_assemble {record : Record}
    (h : record ∈ (assemble load stamp packages).2.records) :
    IsXmlText record.name.toList ∧ IsXmlText record.uid.toList := by
  have hreports : (assemble load stamp packages).2.Reports load (Assembly.sourced packages) :=
    Assembly.reports_assemble stamp packages
  obtain ⟨package, -, hdescribes⟩ := hreports.exists_package h
  rw [hdescribes.name, hdescribes.uid]
  exact ⟨isXmlText_name package.name, isXmlText_packageUid _⟩

/-- **Well-formed reports.** Both XML reports of an assembled document are documents by
    the productions of XML: tags nest, and `<` and `&` stand in tags and references
    only.  They are well-formed if and only if, besides, the production `Char` allows
    every character of the stamp and of the texts of the records that they give. -/
theorem assemble_wellFormed_iff :
    let document := (assemble load stamp packages).2
    let stamped := AreXmlTexts [stamp.reportId, stamp.datetime]
    IsDocument (Xml.render document).toList ∧ IsDocument (SpdxRdf.render document).toList ∧
    (WellFormed (Xml.render document) ↔
      stamped ∧ ∀ record ∈ document.records, AreXmlTexts record.xmlTexts) ∧
    (WellFormed (SpdxRdf.render document) ↔
      stamped ∧ ∀ record ∈ document.records, AreXmlTexts record.rdfTexts) := by
  intro document stamped
  have hxml : IsDocument (Xml.render document).toList := isDocument_of_proper (Xml.proper_root document)
  have hrdf : IsDocument (SpdxRdf.render document).toList :=
    isDocument_of_proper (SpdxRdf.proper_root document)
  have hstamped : AreXmlTexts document.metadata.texts ↔ stamped :=
    areXmlTexts_metadata load stamp packages
  have hmade : ∀ record ∈ document.records,
      IsXmlText record.name.toList ∧ IsXmlText record.uid.toList :=
    fun record => isXmlText_of_mem_assemble load stamp packages
  refine ⟨hxml, hrdf, ?_, ?_⟩
  · rw [wellFormed_iff hxml, Xml.isXmlText_render_iff, hstamped]
    refine and_congr_right fun _ => forall₂_congr fun record hrecord => ?_
    simp [hmade record hrecord]
  · rw [wellFormed_iff hrdf, SpdxRdf.isXmlText_render_iff, hstamped]
    refine and_congr_right fun _ => forall₂_congr fun record hrecord => ?_
    simp [hmade record hrecord]

end

/-- A version with a control character that XML has no way to write. -/
theorem not_wellFormed : ¬ ∀ packages : List Package,
    let document := (assemble noManifests ⟨"id", "2024-05-06T07:08:09Z"⟩ packages).2
    WellFormed (Xml.render document) ∧ WellFormed (SpdxRdf.render document) := by
  intro h
  let package : Package := { name := ⟨"a", by decide⟩, version? := some "1.0\x01" }
  have hallowed := ((Xml.isXmlText_render_iff _).1 (h [package]).1.isXmlText).2
  have hrecord := hallowed (Assembly.record package .empty) List.mem_cons_self
  simp only [areXmlTexts_cons, Record.xmlTexts] at hrecord
  have hversion : IsXmlText "1.0\x01".toList := hrecord.2.2.1
  exact absurd hversion (by decide)

end BillOfMaterials
