import Mathlib.Data.List.Nodup
import BillOfMaterials.Proofs.Assembly.Contents
import BillOfMaterials.Proofs.Document.Agreement
import BillOfMaterials.Proofs.Json.Reading
import BillOfMaterials.Proofs.Json.Values
import BillOfMaterials.Proofs.Report.SpdxRdf
import BillOfMaterials.Report.SpdxJson

/-! # Identifiers of packages in SPDX reports

    An identifier is made from a package's name alone, and many characters of
    names become the same one.

    * `identifier` is what a name becomes, `packageId_eq` that it does; two names have one
      identifier if and only if they are `Alike` (`packageId_eq_iff`).
    * `Document.Reports.nodup_ids_iff`: the identifiers in a document are distinct if
      and only if no two of the packages that it reports have names that are alike.
    * `SpdxJson.exists_value` and `SpdxRdf.exists_root` read the identifiers off the
      reports.
    * `assemble_packageIds` puts this together; `packageIds_not_distinct` is a document with one identifier twice. -/

namespace BillOfMaterials

namespace Report.Spdx

/-! ## Names that are alike -/

/-- The character is kept in identifiers, and no other becomes it. -/
def isPlain (c : Char) : Bool := c.isAlphanum || c == '.'

/-- The names agree but for characters that become `-`. -/
def Alike (first second : String) : Prop :=
  List.Forall₂ (fun c d => c = d ∨ isPlain c = false ∧ isPlain d = false)
    first.toList second.toList

/-- The identifier of a name: what is not kept of it becomes `-`. -/
def identifier (name : String) : String :=
  "SPDXRef-pkg-" ++ String.ofList (name.toList.map fun c => if isPlain c then c else '-')

theorem idChar_of_isPlain {c : Char} (h : isPlain c) : idChar c = c := by
  have hkept : c.isAlphanum || c == '.' || c == '-' := by
    rw [isPlain] at h
    rw [h, Bool.true_or]
  rw [idChar, if_pos hkept]

theorem idChar_of_not_isPlain {c : Char} (h : isPlain c = false) : idChar c = '-' := by
  unfold idChar
  split
  · next hkept =>
    rw [isPlain] at h
    rw [h, Bool.false_or] at hkept
    exact eq_of_beq hkept
  · rfl

theorem packageId_eq (name : String) : packageId name = identifier name := by
  rw [packageId, identifier]
  congr 2
  apply List.map_congr_left
  intro c _
  split
  · next h => exact idChar_of_isPlain h
  · next h => exact idChar_of_not_isPlain (Bool.eq_false_iff.2 h)

theorem ne_of_isPlain {c d : Char} (hc : isPlain c) (hd : isPlain d = false) : c ≠ d := by
  rintro rfl
  rw [hd] at hc
  cases hc

theorem idChar_eq_iff (c d : Char) :
    idChar c = idChar d ↔ c = d ∨ isPlain c = false ∧ isPlain d = false := by
  have hhyphen : isPlain '-' = false := by decide
  cases hc : isPlain c with
  | true =>
    cases hd : isPlain d with
    | true => simp [idChar_of_isPlain hc, idChar_of_isPlain hd]
    | false =>
      simp [idChar_of_isPlain hc, idChar_of_not_isPlain hd, ne_of_isPlain hc hd,
        ne_of_isPlain hc hhyphen]
  | false =>
    cases hd : isPlain d with
    | true =>
      simp [idChar_of_not_isPlain hc, idChar_of_isPlain hd, (ne_of_isPlain hd hc).symm,
        (ne_of_isPlain hd hhyphen).symm]
    | false => simp [idChar_of_not_isPlain hc, idChar_of_not_isPlain hd]

theorem packageId_eq_iff (first second : String) :
    packageId first = packageId second ↔ Alike first second := by
  rw [Alike, forall₂_iff_map_eq idChar_eq_iff, packageId, packageId, String.append_right_inj,
    String.ofList_inj]

theorem packageId_ne_documentId (name : String) : packageId name ≠ documentId := by
  intro h
  have hlist := congrArg String.toList h
  rw [packageId, String.toList_append] at hlist
  -- The ninth characters differ.
  have hninth : 'p' = 'D' := Option.some.inj (congrArg (·[8]?) hlist)
  exact absurd hninth (by decide)

end Report.Spdx

open Report.Spdx

/-! ## Documents -/

/-- **Distinct identifiers.** The identifiers in a document are distinct if and only
    if packages whose names are alike have one name and one install kind. -/
theorem Document.Reports.nodup_ids_iff {load : Loader} {packages : List Package}
    {document : Document} (h : document.Reports load packages) :
    (document.records.map fun record => packageId record.name).Nodup ↔
      ∀ first ∈ packages, ∀ second ∈ packages, Alike first.name.text second.name.text →
        first.name.text = second.name.text ∧ first.install = second.install := by
  rw [List.nodup_map_iff_inj_on h.nodup_records]
  constructor
  · intro hinjective first hfirst second hsecond halike
    obtain ⟨record, hrecord, hname, hinstall⟩ := h.exists_record hfirst
    obtain ⟨other, hother, hname', hinstall'⟩ := h.exists_record hsecond
    rw [← hname, ← hname'] at halike
    have hsame := hinjective record hrecord other hother ((packageId_eq_iff _ _).2 halike)
    rw [← hname, ← hname', ← hinstall, ← hinstall', hsame]
    exact ⟨rfl, rfl⟩
  · intro hpackages record hrecord other hother hid
    obtain ⟨package, hpackage, hdescribes⟩ := h.exists_package hrecord
    obtain ⟨package', hpackage', hdescribes'⟩ := h.exists_package hother
    have halike := (packageId_eq_iff _ _).1 hid
    rw [hdescribes.name, hdescribes'.name] at halike
    obtain ⟨hname, hinstall⟩ := hpackages package hpackage package' hpackage' halike
    apply h.eq_of_name_eq hrecord hother
    · rw [hdescribes.name, hdescribes'.name, hname]
    · rw [hdescribes.install, hdescribes'.install, hinstall]

/-! ## Reports -/

namespace Report

/-- What an element in an RDF report is about. -/
def SpdxRdf.about? (element : Markup.Element) : Option String :=
  element.attributes.lookup "rdf:about"

/-- The identifiers of the packages in an RDF report. -/
def SpdxRdf.abouts (root : Markup.Element) : List (Option String) :=
  (root.named "spdx:Package").map about?

theorem SpdxRdf.exists_root (document : Document) :
    let base := documentNamespace document.metadata
    ∃ root, Markup.read? (render document) = some root ∧
      root.children.map about? = [some (base ++ "#" ++ documentId)] ∧
      abouts root = document.records.map fun record =>
        some (base ++ "#" ++ packageId record.name) := by
  refine ⟨_, read?_render document, rfl, ?_⟩
  rw [abouts, named_root, List.map_map]
  rfl

theorem SpdxJson.texts?_packages (document : Document) :
    (json document).texts? "packages" "SPDXID" =
      some (document.records.map fun record => packageId record.name) :=
  Json.texts?_eq_some package rfl fun _ => rfl

theorem SpdxJson.texts?_relationships (document : Document) :
    (json document).texts? "relationships" "relatedSpdxElement" =
      some (document.records.map fun record => packageId record.name) :=
  Json.texts?_eq_some relationship rfl fun _ => rfl

theorem SpdxJson.exists_value (document : Document) :
    let ids := document.records.map fun record => packageId record.name
    ∃ value, Json.read? (render document) = some value ∧
      value.under? "SPDXID" Json.text? = some documentId ∧
      value.texts? "packages" "SPDXID" = some ids ∧
      value.texts? "relationships" "relatedSpdxElement" = some ids :=
  ⟨_, Json.read?_pretty _, rfl, texts?_packages document, texts?_relationships document⟩

end Report

/-- **Identifiers.** Both SPDX reports are read back.  In them the packages stand, in
    the order of the document, under identifiers made from their names, and the document
    describes just these.  None is the document's own, which is the same in every
    document.  They are distinct if and only if packages whose names are alike have one
    name and one install kind. -/
theorem assemble_packageIds (load : Loader) (stamp : Stamp) (packages : List Package) :
    let reportable := packages.filter (·.vcs ≠ .none)
    let document := (assemble load stamp packages).2
    let ids := document.records.map fun record => identifier record.name
    let about := fun id => documentNamespace document.metadata ++ "#" ++ id
    let own := "SPDXRef-DOCUMENT"
    let apart := ∀ first ∈ reportable, ∀ second ∈ reportable,
      Alike first.name.text second.name.text →
        first.name.text = second.name.text ∧ first.install = second.install
    (∃ value, Json.read? (Report.SpdxJson.render document) = some value ∧
      value.under? "SPDXID" Json.text? = some own ∧
      value.texts? "packages" "SPDXID" = some ids ∧
      value.texts? "relationships" "relatedSpdxElement" = some ids) ∧
    (∃ root, Markup.read? (Report.SpdxRdf.render document) = some root ∧
      root.children.map Report.SpdxRdf.about? = [some (about own)] ∧
      Report.SpdxRdf.abouts root = (ids.map about).map some) ∧
    own ∉ ids ∧ about own ∉ ids.map about ∧
    (ids.Nodup ↔ apart) ∧ ((ids.map about).Nodup ↔ apart) := by
  -- What is known of identifiers is known under the name that the reports use.
  have hidentifier : identifier = packageId := funext fun name => (packageId_eq name).symm
  rw [hidentifier]
  intro reportable document ids about own apart
  have hreports : document.Reports load reportable := Assembly.reports_assemble stamp packages
  have habout : Function.Injective about := by
    intro first second h
    exact (String.append_right_inj _).1 h
  have hown : own ∉ ids := by
    intro hmem
    obtain ⟨record, -, h⟩ := List.mem_map.1 hmem
    exact packageId_ne_documentId record.name h
  have hids : ids.Nodup ↔ apart := hreports.nodup_ids_iff
  refine ⟨Report.SpdxJson.exists_value document, ?_, hown, ?_, hids, ?_⟩
  · obtain ⟨root, hroot, hself, habouts⟩ := Report.SpdxRdf.exists_root document
    refine ⟨root, hroot, hself, ?_⟩
    rw [habouts, List.map_map, List.map_map]
    rfl
  · rw [List.mem_map_of_injective habout]
    exact hown
  · rw [List.nodup_map_iff habout]
    exact hids

/-- Two names with one identifier: it stands twice in the report. -/
theorem packageIds_not_distinct :
    ¬ ∀ (load : Loader) (stamp : Stamp) (packages : List Package), ∃ value ids,
      Json.read? (Report.SpdxJson.render (assemble load stamp packages).2) = some value ∧
      value.texts? "packages" "SPDXID" = some ids ∧ ids.Nodup := by
  intro h
  let packages : List Package :=
    [{ name := ⟨"a+", by decide +kernel⟩ }, { name := ⟨"a_", by decide +kernel⟩ }]
  obtain ⟨value, ids, hvalue, hids, hdistinct⟩ := h noManifests ⟨"id", "now"⟩ packages
  rw [Report.SpdxJson.render, Json.read?_pretty] at hvalue
  obtain rfl := Option.some.inj hvalue
  have htwice : (Report.SpdxJson.json (assemble noManifests ⟨"id", "now"⟩ packages).2).texts?
      "packages" "SPDXID" = some ["SPDXRef-pkg-a-", "SPDXRef-pkg-a-"] := by
    rw [Report.SpdxJson.texts?_packages]
    decide +kernel
  rw [htwice, Option.some.injEq] at hids
  rw [← hids] at hdistinct
  simp at hdistinct

end BillOfMaterials
