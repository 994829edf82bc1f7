import BillOfMaterials.Proofs.Document.Agreement
import BillOfMaterials.Proofs.Document.Bucket
import BillOfMaterials.Proofs.Json.Reading
import BillOfMaterials.Proofs.Json.Values
import BillOfMaterials.Report.Json

/-! # What the JSON report tells

    The report is read back as an object, and from its members everything that was
    written: the metadata, the names of the packages, and a description under each name.

    * `Description` is what is written of a package under its name; `ofJson?_toJson` reads
      it back.
    * `Lists` relates an object of packages to the records that were inserted.
    * `documentJson_eq_iff`: the value of a report determines the document.
    * `render_determines` puts this together for the text of the report. -/

namespace BillOfMaterials

/-! ## Kinds by name -/

theorem Install.ofName?_name (install : Install) : Install.ofName? install.name = some install := by
  cases install <;> decide

theorem Vcs.ofName?_name (vcs : Vcs) : Vcs.ofName? vcs.name = some vcs := by
  cases vcs <;> decide

/-! ## Descriptions -/

/-- What is written of a package under its name. -/
structure Description where
  version : String
  site? : Option String
  install : Install
  vcs : Vcs
  licenses : List String
  /-- Of each listed hash the algorithm as its text, the digest and the asset. -/
  hashes : List (String × String × String)
  uid : String

def Record.description (record : Record) : Description where
  version := record.version
  site? := record.site?
  install := record.install
  vcs := record.vcs
  licenses := record.licenses
  hashes := record.hashes.entries.map (·.written)
  uid := record.uid

theorem Record.agrees_iff {first second : Record} :
    first.Agrees second ↔ first.name = second.name ∧ first.description = second.description := by
  constructor
  · rintro ⟨hname, hversion, hsite, hinstall, hvcs, hlicenses, hhashes, huid⟩
    refine ⟨hname, ?_⟩
    rw [description, description, hversion, hsite, hinstall, hvcs, hlicenses, hhashes, huid]
  · rintro ⟨hname, hdescription⟩
    simp only [description, Description.mk.injEq] at hdescription
    obtain ⟨hversion, hsite, hinstall, hvcs, hlicenses, hhashes, huid⟩ := hdescription
    exact ⟨hname, hversion, hsite, hinstall, hvcs, hlicenses, hhashes, huid⟩

open Json Report

namespace Description

/-- A listed hash as it is written. -/
def hashJson (hash : String × String × String) : Json :=
  .object [("algorithm", .text hash.1), ("digest", .text hash.2.1), ("asset", .text hash.2.2)]

def toJson (description : Description) : Json :=
  .object
    [ ("version", .text description.version),
      ("site", (description.site?.map .text).getD .null),
      ("install-type", .text description.install.name),
      ("vcs-type", .text description.vcs.name),
      ("licenses", .list (description.licenses.map .text)),
      ("hashes", .list (description.hashes.map hashJson)),
      ("uid", .text description.uid) ]

def hash? (json : Json) : Option (String × String × String) := do
  let algorithm ← json.under? "algorithm" text?
  let digest ← json.under? "digest" text?
  let asset ← json.under? "asset" text?
  some (algorithm, digest, asset)

def ofJson? (json : Json) : Option Description := do
  let version ← json.under? "version" text?
  let site? ← json.under? "site" optionalText?
  let install ← (json.under? "install-type" text?).bind Install.ofName?
  let vcs ← (json.under? "vcs-type" text?).bind Vcs.ofName?
  let licenses ← json.under? "licenses" (list? text?)
  let hashes ← json.under? "hashes" (list? hash?)
  let uid ← json.under? "uid" text?
  some { version, site?, install, vcs, licenses, hashes, uid }

theorem ofJson?_toJson (description : Description) :
    ofJson? description.toJson = some description := by
  have hsite : description.toJson.under? "site" optionalText? = some description.site? := by
    show optionalText? ((description.site?.map .text).getD .null) = some description.site?
    cases description.site? <;> rfl
  have hinstall : (description.toJson.under? "install-type" text?).bind Install.ofName? =
      some description.install := Install.ofName?_name description.install
  have hvcs : (description.toJson.under? "vcs-type" text?).bind Vcs.ofName? =
      some description.vcs := Vcs.ofName?_name description.vcs
  have hlicenses : description.toJson.under? "licenses" (list? text?) =
      some description.licenses := list?_written .text (fun _ => rfl) description.licenses
  have hhashes : description.toJson.under? "hashes" (list? hash?) =
      some description.hashes := list?_written hashJson (fun _ => rfl) description.hashes
  rw [ofJson?, hsite, hinstall, hvcs, hlicenses, hhashes]
  rfl

theorem hasDistinctNames_hashJson (hash : String × String × String) :
    (hashJson hash).HasDistinctNames := by
  refine .object (by simp) ?_
  simp only [List.forall_mem_cons]
  exact ⟨.text _, .text _, .text _, by simp⟩

theorem hasDistinctNames_toJson (description : Description) :
    description.toJson.HasDistinctNames := by
  have hsite : ((description.site?.map Json.text).getD .null).HasDistinctNames := by
    cases description.site? with
    | none => exact .null
    | some site => exact .text site
  have hlicenses : ∀ json ∈ description.licenses.map Json.text, json.HasDistinctNames := by
    rw [List.forall_mem_map]
    exact fun license _ => .text license
  have hhashes : ∀ json ∈ description.hashes.map hashJson, json.HasDistinctNames := by
    rw [List.forall_mem_map]
    exact fun hash _ => hasDistinctNames_hashJson hash
  refine .object (by simp) ?_
  simp only [List.forall_mem_cons]
  exact ⟨.text _, hsite, .text _, .text _, .list hlicenses, .list hhashes, .text _, by simp⟩

end Description

theorem Report.recordJson_eq (record : Record) : recordJson record = record.description.toJson := by
  have hhashes : manifestJson record.hashes =
      .list (record.description.hashes.map Description.hashJson) := by
    rw [Record.description, List.map_map, manifestJson]
    congr 1
    apply List.map_congr_left
    intro entry _
    rw [Function.comp_apply, entry.written_eq, Description.hashJson]
  rw [recordJson, hhashes]
  rfl

theorem Description.ofJson?_recordJson (record : Record) :
    ofJson? (recordJson record) = some record.description := by
  rw [recordJson_eq, ofJson?_toJson]

/-! ## Metadata -/

def Metadata.ofJson? (json : Json) : Option Metadata := do
  let reportId ← json.under? "report-id" text?
  let toolVersion ← json.under? "tool-version" text?
  let projectId ← json.under? "project-id" text?
  let datetime ← json.under? "datetime" text?
  some { reportId, toolVersion, projectId, datetime }

theorem Metadata.ofJson?_documentJson (document : Document) :
    ofJson? (documentJson document) = some document.metadata := rfl

/-! ## Buckets -/

/-- The object names the inserted packages, each once, in the order in which the names
    came first, and under each name describes the last record of the name. -/
structure Report.Lists (inserted : List Record) (packages : Json) : Prop where
  names : packages.names? = some (inserted.map (·.name)).eraseDups
  distinct : ∀ names, packages.names? = some names → names.Nodup
  last : ∀ before record after, inserted = before ++ record :: after →
    (∀ later ∈ after, later.name ≠ record.name) →
      packages.under? record.name Description.ofJson? = some record.description

theorem names?_bucketJson (bucket : Bucket) : (bucketJson bucket).names? = some bucket.names := by
  rw [bucketJson, names?, List.map_map]
  rfl

theorem member?_bucketJson {bucket : Bucket} {record : Record} (h : record ∈ bucket.records) :
    (bucketJson bucket).member? record.name = some (recordJson record) :=
  lookup_map_of_mem bucket.distinct h

theorem lists_bucketJson (inserted : List Record) :
    Lists inserted (bucketJson (.ofRecords inserted)) where
  names := by rw [names?_bucketJson, Bucket.names_ofRecords]
  distinct := by
    intro names h
    rw [names?_bucketJson, Option.some.injEq] at h
    rw [← h]
    exact (Bucket.ofRecords inserted).distinct
  last := by
    intro before record after hsplit hafter
    have hmem := Bucket.mem_ofRecords_iff.2 ⟨before, after, hsplit, hafter⟩
    rw [under?, member?_bucketJson hmem]
    exact Description.ofJson?_recordJson record

/-- Names are distinct in the bucket, so they are where they become members. -/
theorem hasDistinctNames_bucketJson (bucket : Bucket) : (bucketJson bucket).HasDistinctNames := by
  have hnames : ((bucket.records.map fun record => (record.name, recordJson record)).map
      Prod.fst).Nodup := by
    rw [List.map_map]
    exact bucket.distinct
  refine .object hnames ?_
  rw [List.forall_mem_map]
  intro record _
  rw [recordJson_eq]
  exact record.description.hasDistinctNames_toJson

/-- What is written for a record in its bucket tells what there is to write of it. -/
theorem member_eq_iff (first second : Record) :
    (first.name, recordJson first) = (second.name, recordJson second) ↔ first.Agrees second := by
  rw [Record.agrees_iff, Prod.mk.injEq, recordJson_eq, recordJson_eq]
  constructor
  · rintro ⟨hname, hjson⟩
    have hread := Description.ofJson?_toJson first.description
    rw [hjson, Description.ofJson?_toJson] at hread
    exact ⟨hname, (Option.some.inj hread).symm⟩
  · rintro ⟨hname, hdescription⟩
    rw [hname, hdescription]
    exact ⟨rfl, rfl⟩

theorem bucketJson_eq_iff (first second : Bucket) :
    bucketJson first = bucketJson second ↔
      List.Forall₂ Record.Agrees first.records second.records := by
  rw [forall₂_iff_map_eq member_eq_iff, bucketJson, bucketJson, Json.object.injEq]

/-! ## Documents -/

theorem names?_documentJson (document : Document) : (documentJson document).names? =
    some (["type", "report-id", "schema-version", "tool-version", "project-id", "datetime",
      "packages"] ++ if document.hostPackages.isEmpty then [] else ["host-packages"]) := by
  cases h : document.hostPackages.isEmpty <;> rw [documentJson, h] <;> rfl

theorem member?_packages (document : Document) :
    (documentJson document).member? "packages" = some (bucketJson document.packages) := rfl

theorem member?_hostPackages (document : Document) :
    (documentJson document).member? "host-packages" =
      if document.hostPackages.isEmpty then none else some (bucketJson document.hostPackages) := by
  cases h : document.hostPackages.isEmpty <;> rw [documentJson, h] <;> rfl

theorem hasDistinctNames_documentJson (document : Document) :
    (documentJson document).HasDistinctNames := by
  have htarget := hasDistinctNames_bucketJson document.packages
  have hhost := hasDistinctNames_bucketJson document.hostPackages
  cases hempty : document.hostPackages.isEmpty <;> rw [documentJson, hempty]
  all_goals
    refine .object (by simp) ?_
    simp [htarget, hhost, HasDistinctNames.text]

/-- Whether or not it is written, the host's bucket is told by the report. -/
theorem getD_member?_hostPackages (document : Document) :
    ((documentJson document).member? "host-packages").getD (bucketJson .empty) =
      bucketJson document.hostPackages := by
  rw [member?_hostPackages]
  split
  · next hempty => simp [bucketJson, List.isEmpty_iff.1 hempty]
  · rfl

/-- **Value.** The value of a report determines the document. -/
theorem documentJson_eq_iff (first second : Document) :
    documentJson first = documentJson second ↔ first.Agrees second := by
  constructor
  · intro h
    have hmetadata := Metadata.ofJson?_documentJson first
    rw [h, Metadata.ofJson?_documentJson, Option.some.injEq] at hmetadata
    have hpackages := member?_packages first
    rw [h, member?_packages, Option.some.injEq] at hpackages
    have hhost := getD_member?_hostPackages first
    rw [h, getD_member?_hostPackages] at hhost
    exact {
      metadata := hmetadata.symm
      packages := (bucketJson_eq_iff _ _).1 hpackages.symm
      hostPackages := (bucketJson_eq_iff _ _).1 hhost.symm }
  · intro h
    have hpackages := (bucketJson_eq_iff _ _).2 h.packages
    have hhost := (bucketJson_eq_iff _ _).2 h.hostPackages
    rw [documentJson, documentJson, h.metadata, hpackages, hhost, h.isEmpty_hostPackages]

/-- **JSON report.** The report of any document whose buckets were filled by inserting
    records is read as an object; neither it nor any object in it has two members of
    one name.  It tells the metadata and, for each bucket, the names and what there is
    to write of each package; the host's bucket is there if and only if it has packages.
    Only documents that agree in all this have the same report. -/
theorem Report.Json.render_determines (metadata : Metadata) (targets hosts : List Record) :
    let document : Document := ⟨metadata, .ofRecords targets, .ofRecords hosts⟩
    ∃ json, read? (render document) = some json ∧ json.HasDistinctNames ∧
      json.names? = some (["type", "report-id", "schema-version", "tool-version", "project-id",
        "datetime", "packages"] ++
          if document.hostPackages.isEmpty then [] else ["host-packages"]) ∧
      json.under? "type" text? = some "releng-tool-sbom" ∧
      json.under? "schema-version" text? = some "0" ∧
      Metadata.ofJson? json = some metadata ∧
      (∃ packages, json.member? "packages" = some packages ∧ Lists targets packages) ∧
      (document.hostPackages.isEmpty ∨
        ∃ packages, json.member? "host-packages" = some packages ∧ Lists hosts packages) ∧
      ∀ other : Document, render other = render document ↔ other.Agrees document := by
  intro document
  refine ⟨documentJson document, read?_pretty _, hasDistinctNames_documentJson document,
    names?_documentJson document, rfl, rfl, Metadata.ofJson?_documentJson document,
    ⟨_, member?_packages document, lists_bucketJson targets⟩, ?_, ?_⟩
  · rw [member?_hostPackages]
    cases document.hostPackages.isEmpty with
    | true => exact .inl rfl
    | false => exact .inr ⟨_, rfl, lists_bucketJson hosts⟩
  · -- A text is read as one value only, so the values of the reports can be compared.
    intro other
    rw [render, render, pretty_injective.eq_iff, documentJson_eq_iff]

end BillOfMaterials
