import BillOfMaterials.Proofs.Document.Agreement
import BillOfMaterials.Proofs.Markup.Elements
import BillOfMaterials.Report.Xml

/-! # The XML report determines the document

    * `read?_render`: the report can be read, whatever its texts are.
    * `agrees_of_packageElement_eq`: the element of a package tells all that there
      is to write of it.
    * `children_bucket` and `children_hostBucket`: the element of a bucket tells its
      packages in order, and no such element that there are none.
    * `render_eq_iff` puts all of it together. -/

namespace BillOfMaterials.Report.Xml

open Markup

/-! ## The parts of the report -/

def attributes (metadata : Metadata) : List Attribute :=
  [ ("type", Document.type),
    ("report-id", metadata.reportId),
    ("schema-version", Document.schemaVersion),
    ("tool-version", metadata.toolVersion),
    ("project-id", metadata.projectId),
    ("datetime", metadata.datetime) ]

/-- The buckets that are written. -/
def buckets (document : Document) : List Node :=
  bucket "packages" document.packages ::
    if document.hostPackages.isEmpty then []
    else [bucket "host-packages" document.hostPackages]

theorem root_eq (document : Document) :
    root document = .block "sbom" (attributes document.metadata) (buckets document) := rfl

/-- What stands in the element of a package. -/
def parts (record : Record) : List Node :=
  .text "version" record.version :: site record.site? ++
    [ .text "install-type" record.install.name,
      .text "vcs-type" record.vcs.name,
      .block "licenses" [] (record.licenses.map fun license => .text "license" license),
      .block "hashes" [] (record.hashes.entries.map hash),
      .text "uid" record.uid ]

theorem package_eq (record : Record) :
    package record = .block "package" [("name", record.name)] (parts record) := rfl

/-! ## The report can be read -/

/-- What is written under the declaration can be read. -/
theorem read?_declared {name : String} {attributes : List Attribute} {contents : List Node}
    (hnamed : (Node.block name attributes contents).isNamed)
    (hclosed : (Node.block name attributes contents).isClosed) :
    read? (line 0 declaration ++ (Node.block name attributes contents).render 0) =
      some (.ofBlock 0 name attributes contents) := by
  have hdeclaration : declaration =
      "<" ++ "?xml version=\"1.0\" encoding=\"utf-8\"?" ++ ">" := by decide
  have hall : "?xml version=\"1.0\" encoding=\"utf-8\"?".toList.all
      fun c => c != '<' && c != '>' := by decide
  rw [hdeclaration]
  apply read?_document rfl _ hnamed hclosed
  intro c hc
  simpa using List.all_eq_true.1 hall c hc

theorem isNamed_hash (entry : Manifest.Entry) : (hash entry).isNamed := by
  rw [hash, Node.isNamed_text]
  rfl

theorem isNamed_package (record : Record) : (package record).isNamed := by
  have hsite : (site record.site?).all Node.isNamed := by
    cases record.site? <;> rfl
  have hlicenses : (record.licenses.map fun license => Node.text "license" license).all
      Node.isNamed := by
    simp only [List.all_map, List.all_eq_true]
    intro license _
    rfl
  have hhashes : (record.hashes.entries.map hash).all Node.isNamed := by
    simp only [List.all_map, List.all_eq_true]
    intro entry _
    exact isNamed_hash entry
  simp only [package, Node.isNamed_block, List.all_cons, List.all_append, hsite, hlicenses, hhashes]
  rfl

theorem isNamed_bucket {name : String} (hname : isName name.toList) (packages : Bucket) :
    (bucket name packages).isNamed := by
  have hpackages : (packages.records.map package).all Node.isNamed := by
    simp only [List.all_map, List.all_eq_true]
    intro record _
    exact isNamed_package record
  rw [bucket, Node.isNamed_block, hname, hpackages]
  rfl

theorem isNamed_root (document : Document) : (root document).isNamed := by
  have htarget : (bucket "packages" document.packages).isNamed := isNamed_bucket (by decide) _
  have hhost : (bucket "host-packages" document.hostPackages).isNamed :=
    isNamed_bucket (by decide) _
  have hbuckets : (buckets document).all Node.isNamed := by
    unfold buckets
    split <;> simp [htarget, hhost]
  rw [root_eq, Node.isNamed_block, hbuckets]
  rfl

theorem isClosed_package (record : Record) : (package record).isClosed := by
  cases hsite : record.site? <;> simp [package, site, hsite, hash]

theorem isClosed_bucket (name : String) (packages : Bucket) : (bucket name packages).isClosed := by
  simp [bucket, isClosed_package]

theorem isClosed_root (document : Document) : (root document).isClosed := by
  rw [root_eq, Node.isClosed_block]
  unfold buckets
  split <;> simp [isClosed_bucket]

theorem read?_render (document : Document) : read? (render document) =
    some (.ofBlock 0 "sbom" (attributes document.metadata) (buckets document)) := by
  rw [render, root_eq]
  exact read?_declared (isNamed_root document) (isClosed_root document)

/-! ## What elements tell -/

/-- The element of a package. -/
def packageElement (record : Record) : Element :=
  .ofBlock 2 "package" [("name", record.name)] (parts record)

/-- The element of a listed hash. -/
def hashElement : String × String × String → Element
  | (algorithm, digest, asset) =>
    ⟨"hash", [("algorithm", algorithm), ("asset", asset)], digest, []⟩

theorem hashElement_injective : Function.Injective hashElement := by
  rintro ⟨algorithm, digest, asset⟩ ⟨algorithm', digest', asset'⟩ h
  simp only [hashElement, Element.mk.injEq, List.cons.injEq, Prod.mk.injEq, and_true,
    true_and] at h
  obtain ⟨⟨rfl, rfl⟩, rfl⟩ := h
  rfl

theorem children_hashes (depth : Nat) (entries : List Manifest.Entry) :
    (Element.ofBlock depth "hashes" [] (entries.map hash)).children =
      (entries.map (·.written)).map hashElement := by
  rw [List.map_map]
  apply Element.children_ofBlock_map
  intro entry
  rw [hash, Node.elements_text, Function.comp_apply, entry.written_eq]
  rfl

/-- The element of a text. -/
def textElement (name text : String) : Element := ⟨name, [], text, []⟩

theorem textElement_injective (name : String) : Function.Injective (textElement name) := by
  intro first second h
  exact congrArg Element.text h

theorem children_licenses (depth : Nat) (licenses : List String) :
    (Element.ofBlock depth "licenses" []
      (licenses.map fun license => .text "license" license)).children =
      licenses.map (textElement "license") := by
  apply Element.children_ofBlock_map
  intro license
  rw [Node.elements_text]
  rfl

/-- No site is not an empty site. -/
theorem siteElements_injective :
    Function.Injective fun site? : Option String => site?.toList.map (textElement "site") := by
  intro first second h
  cases first with
  | none =>
    cases second with
    | none => rfl
    | some => cases h
  | some =>
    cases second with
    | none => cases h
    | some => rw [textElement_injective "site" (List.cons.inj h).1]

theorem children_packageElement (record : Record) : (packageElement record).children =
    textElement "version" record.version ::
      (record.site?.toList.map (textElement "site") ++
        [ textElement "install-type" record.install.name,
          textElement "vcs-type" record.vcs.name,
          .ofBlock 3 "licenses" [] (record.licenses.map fun license => .text "license" license),
          .ofBlock 3 "hashes" [] (record.hashes.entries.map hash),
          textElement "uid" record.uid ]) := by
  cases hsite : record.site? <;>
    simp [packageElement, Element.ofBlock, parts, site, hsite, textElement]

/-- The element of a package tells all that there is to write of it. -/
theorem agrees_of_packageElement_eq {first second : Record}
    (h : packageElement first = packageElement second) : first.Agrees second := by
  have hname : [("name", first.name)] = [("name", second.name)] := congrArg Element.attributes h
  have hparts := congrArg Element.children h
  rw [children_packageElement, children_packageElement, List.cons.injEq] at hparts
  obtain ⟨hversion, hparts⟩ := hparts
  -- The site is what stands before the last five elements.
  obtain ⟨hsite, hrest⟩ := List.append_inj' hparts rfl
  simp only [List.cons.injEq, and_true] at hrest
  obtain ⟨hinstall, hvcs, hlicenses, hhashes, huid⟩ := hrest
  have hlicenses := congrArg Element.children hlicenses
  have hhashes := congrArg Element.children hhashes
  rw [children_licenses, children_licenses] at hlicenses
  rw [children_hashes, children_hashes] at hhashes
  exact {
    name := by simpa using hname
    version := textElement_injective _ hversion
    site := siteElements_injective hsite
    install := Install.name_injective (textElement_injective _ hinstall)
    vcs := Vcs.name_injective (textElement_injective _ hvcs)
    licenses := List.map_injective_iff.2 (textElement_injective _) hlicenses
    hashes := List.map_injective_iff.2 hashElement_injective hhashes
    uid := textElement_injective _ huid }

theorem parts_eq_of_agrees {first second : Record} (h : first.Agrees second) :
    parts first = parts second := by
  have hhash : ∀ record : Record, record.hashes.entries.map hash =
      (record.hashes.entries.map (·.written)).map fun (algorithm, digest, asset) =>
        .text "hash" digest [("algorithm", algorithm), ("asset", asset)] := by
    intro record
    rw [List.map_map]
    apply List.map_congr_left
    intro entry _
    rw [Function.comp_apply, entry.written_eq, hash]
  rw [parts, parts, hhash, hhash, h.version, h.site, h.install, h.vcs, h.licenses, h.hashes, h.uid]

theorem packageElement_eq_iff (first second : Record) :
    packageElement first = packageElement second ↔ first.Agrees second := by
  constructor
  · exact agrees_of_packageElement_eq
  · intro h
    rw [packageElement, packageElement, h.name, parts_eq_of_agrees h]

theorem package_eq_iff (first second : Record) :
    package first = package second ↔ first.Agrees second := by
  constructor
  · intro h
    rw [package_eq, package_eq, Node.block.injEq] at h
    apply agrees_of_packageElement_eq
    rw [packageElement, packageElement, h.2.1, h.2.2]
  · intro h
    rw [package_eq, package_eq, h.name, parts_eq_of_agrees h]

theorem children_bucket (name : String) (packages : Bucket) :
    (Element.ofBlock 1 name [] (packages.records.map package)).children =
      packages.records.map packageElement := by
  apply Element.children_ofBlock_map
  intro record
  rw [package_eq, Node.elements_block]
  rfl

theorem elements_buckets (document : Document) :
    (buckets document).flatMap (Node.elements 1) =
      .ofBlock 1 "packages" [] (document.packages.records.map package) ::
        if document.hostPackages.isEmpty then []
        else [.ofBlock 1 "host-packages" [] (document.hostPackages.records.map package)] := by
  unfold buckets bucket
  split <;> simp only [List.flatMap_cons, List.flatMap_nil, Node.elements_block] <;> rfl

/-- Whether or not it is written, the host's bucket is told by what stands after
    the target's. -/
theorem children_hostBucket (document : Document) :
    (if document.hostPackages.isEmpty then []
      else [Element.ofBlock 1 "host-packages" []
        (document.hostPackages.records.map package)]).flatMap Element.children =
      document.hostPackages.records.map packageElement := by
  split
  · next hempty =>
    rw [List.isEmpty_iff.1 hempty]
    rfl
  · rw [List.flatMap_singleton, children_bucket]

/-! ## The report -/

theorem root_eq_of_agrees {first second : Document} (h : first.Agrees second) :
    root first = root second := by
  have hpackages := (forall₂_iff_map_eq package_eq_iff).1 h.packages
  have hhost := (forall₂_iff_map_eq package_eq_iff).1 h.hostPackages
  rw [root_eq, root_eq, buckets, buckets, bucket, bucket, bucket, bucket, h.metadata, hpackages,
    hhost, h.isEmpty_hostPackages]

theorem attributes_injective : Function.Injective attributes := by
  intro first second h
  cases first
  cases second
  simp only [attributes, List.cons.injEq, Prod.mk.injEq, true_and, and_true] at h
  obtain ⟨rfl, rfl, rfl, rfl⟩ := h
  rfl

/-- **Native report.** The XML report determines the document: two documents have
    the same report if and only if they have the same metadata and, in each bucket,
    the same records in the same order. -/
theorem render_eq_iff (first second : Document) :
    render first = render second ↔ first.Agrees second := by
  constructor
  · intro h
    have hread := congrArg read? h
    rw [read?_render, read?_render, Option.some.injEq] at hread
    have hattributes : attributes first.metadata = attributes second.metadata :=
      congrArg Element.attributes hread
    have hbuckets : (buckets first).flatMap (Node.elements 1) =
        (buckets second).flatMap (Node.elements 1) := congrArg Element.children hread
    rw [elements_buckets, elements_buckets, List.cons.injEq] at hbuckets
    have hpackages := congrArg Element.children hbuckets.1
    have hhost := congrArg (·.flatMap Element.children) hbuckets.2
    simp only [children_bucket, children_hostBucket] at hpackages hhost
    exact {
      metadata := attributes_injective hattributes
      packages := (forall₂_iff_map_eq packageElement_eq_iff).2 hpackages
      hostPackages := (forall₂_iff_map_eq packageElement_eq_iff).2 hhost }
  · intro h
    rw [render, render, root_eq_of_agrees h]

end BillOfMaterials.Report.Xml
