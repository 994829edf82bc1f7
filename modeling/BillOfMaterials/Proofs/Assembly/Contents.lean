import Mathlib.Data.List.Nodup
import BillOfMaterials.Generation.Perform
import BillOfMaterials.Proofs.Document.Bucket

/-! # What an assembled document holds

    Assembling goes through the packages once and keeps two buckets and a list
    of names.  Each of the three depends on its own share of the packages only.

    * `Reflects` says what the packages so far amount to; one package keeps it
      (`Reflects.add`), and so does a list of them (`Reflects.gather`).
    * `gather_events`: what happens depends on each package alone.
    * `Describes`, `Bucket.Reports` and `Document.Reports` are what a record, a
      bucket and a document have to say.
    * `assemble_reports` puts all of it together. -/

namespace BillOfMaterials

/-! ## Events -/

/-- What a run asks of the disk. -/
def calls (events : List Event) : List Event := events.filter (!·.isMessage)

@[simp] theorem calls_append (first second : List Event) :
    calls (first ++ second) = calls first ++ calls second := by
  simp [calls]

@[simp] theorem calls_load (paths : List Path) :
    calls (paths.map .load) = paths.map .load := by
  unfold calls
  rw [List.filter_eq_self]
  intro event hevent
  obtain ⟨path, -, rfl⟩ := List.mem_map.1 hevent
  rfl

@[simp] theorem calls_warning (messages : List String) : calls (messages.map .warning) = [] := by
  simp [calls, Event.isMessage]

/-- The warning that an event is. -/
def Event.warning? : Event → Option String
  | .warning message => some message
  | _ => none

def warnings (events : List Event) : List String := events.filterMap Event.warning?

@[simp] theorem warnings_append (first second : List Event) :
    warnings (first ++ second) = warnings first ++ warnings second := by
  simp [warnings]

@[simp] theorem warnings_load (paths : List Path) : warnings (paths.map .load) = [] := by
  simp [warnings, List.filterMap_map, Function.comp_def, Event.warning?]

@[simp] theorem warnings_warning (messages : List String) :
    warnings (messages.map .warning) = messages := by
  simp [warnings, List.filterMap_map, Function.comp_def, Event.warning?]

/-! ## What is to be reported -/

/-- The text is absent or empty. -/
def Lacking (text? : Option String) : Prop := ∀ text, text? = some text → text = ""

/-- The version of a package, else its revision, else the empty text. -/
inductive VersionOf (package : Package) : String → Prop where
  | version {text : String} : package.version? = some text → text ≠ "" → VersionOf package text
  | revision {text : String} : Lacking package.version? → package.revision? = some text →
      text ≠ "" → VersionOf package text
  | absent : Lacking package.version? → Lacking package.revision? → VersionOf package ""

/-- The hashes of a package's sources: none without a manifest, nor with one that
    cannot be loaded. -/
inductive HashesOf (load : Loader) (package : Package) : Manifest → Prop where
  | absent : package.hashFile? = none → HashesOf load package .empty
  | loaded {path : Path} {manifest : Manifest} : package.hashFile? = some path →
      load path = .ok manifest → HashesOf load package manifest
  | unloadable {path : Path} {error : Manifest.LoadError} : package.hashFile? = some path →
      load path = .error error → HashesOf load package .empty

/-- What a record says of the package that it is made from. -/
structure Describes (load : Loader) (package : Package) (record : Record) : Prop where
  name : record.name = package.name.text
  version : VersionOf package record.version
  site : record.site? = package.site?
  install : record.install = package.install
  vcs : record.vcs = package.vcs
  licenses : record.licenses = package.licenses
  hashes : HashesOf load package record.hashes
  uid : record.uid = Identity.packageUid package.name.text

/-- A bucket has each name of these packages once, where it came first, and under
    it the record of the last package of that name. -/
structure Bucket.Reports (load : Loader) (packages : List Package) (bucket : Bucket) : Prop where
  names : bucket.names = (packages.map (·.name.text)).eraseDups
  latest : ∀ record ∈ bucket.records, ∃ before package after,
    packages = before ++ package :: after ∧ Describes load package record ∧
      ∀ later ∈ after, later.name.text ≠ record.name

/-- The bucket of an install kind. -/
def Document.bucket (document : Document) : Install → Bucket
  | .target => document.packages
  | .host => document.hostPackages

/-- What is told of a package that is skipped or whose manifest cannot be loaded. -/
def complaint? (load : Loader) (package : Package) : Option String :=
  if package.vcs = .none then some ("skipping package without sources: " ++ package.name.text)
  else
    match package.hashFile?.map load with
    | some (.error error) =>
      some ("no hashes recorded for " ++ package.name.text ++ ": " ++
        String.ofList (error.message.toList.map fun c => if c = '\n' then ' ' else c))
    | _ => none

theorem Generation.manifestPaths_append (first second : List Package) :
    manifestPaths (first ++ second) = manifestPaths first ++ manifestPaths second := by
  simp [manifestPaths]

/-! ## What a reporting document holds -/

/-- The buckets report the packages of their own install kind. -/
def Document.Reports (load : Loader) (packages : List Package) (document : Document) : Prop :=
  ∀ kind, (document.bucket kind).Reports load (packages.filter (·.install = kind))

namespace Document

variable {load : Loader} {packages : List Package} {document : Document}

theorem mem_records_iff {record : Record} :
    record ∈ document.records ↔ ∃ kind, record ∈ (document.bucket kind).records := by
  rw [records, List.mem_append]
  constructor
  · rintro (h | h)
    · exact ⟨.target, h⟩
    · exact ⟨.host, h⟩
  · rintro ⟨kind, h⟩
    cases kind with
    | target => exact .inl h
    | host => exact .inr h

/-- A record is of a package of its bucket's install kind. -/
theorem Reports.of_mem_bucket (h : document.Reports load packages) {kind : Install}
    {record : Record} (hmem : record ∈ (document.bucket kind).records) :
    record.install = kind ∧ ∃ package ∈ packages, Describes load package record := by
  obtain ⟨before, package, after, hsplit, hdescribes, -⟩ := (h kind).latest record hmem
  have hpackage : package ∈ packages.filter (·.install = kind) := by
    rw [hsplit]
    simp
  rw [List.mem_filter, decide_eq_true_iff] at hpackage
  exact ⟨hdescribes.install.trans hpackage.2, package, hpackage.1, hdescribes⟩

theorem Reports.exists_package (h : document.Reports load packages) {record : Record}
    (hmem : record ∈ document.records) : ∃ package ∈ packages, Describes load package record := by
  obtain ⟨kind, hkind⟩ := mem_records_iff.1 hmem
  exact (h.of_mem_bucket hkind).2

/-- Every package has a record with its name and its install kind. -/
theorem Reports.exists_record (h : document.Reports load packages) {package : Package}
    (hmem : package ∈ packages) :
    ∃ record ∈ document.records,
      record.name = package.name.text ∧ record.install = package.install := by
  have hname : package.name.text ∈ (document.bucket package.install).names := by
    rw [(h package.install).names, List.mem_eraseDups]
    apply List.mem_map_of_mem
    rw [List.mem_filter, decide_eq_true_iff]
    exact ⟨hmem, rfl⟩
  obtain ⟨record, hrecord, heq⟩ := List.mem_map.1 hname
  have hrecords : record ∈ document.records := mem_records_iff.2 ⟨package.install, hrecord⟩
  exact ⟨record, hrecords, heq, (h.of_mem_bucket hrecord).1⟩

/-- A record is found by its name and its install kind. -/
theorem Reports.eq_of_name_eq (h : document.Reports load packages) {first second : Record}
    (hfirst : first ∈ document.records) (hsecond : second ∈ document.records)
    (hname : first.name = second.name) (hinstall : first.install = second.install) :
    first = second := by
  have hbucket : ∀ record ∈ document.records,
      record ∈ (document.bucket record.install).records := by
    intro record hrecord
    obtain ⟨kind, hkind⟩ := mem_records_iff.1 hrecord
    rw [(h.of_mem_bucket hkind).1]
    exact hkind
  have hother := hbucket second hsecond
  rw [← hinstall] at hother
  exact List.inj_on_of_nodup_map (document.bucket first.install).distinct
    (hbucket first hfirst) hother hname

/-- No two records of a document are the same. -/
theorem Reports.nodup_records (h : document.Reports load packages) : document.records.Nodup := by
  have hkind : ∀ kind, (document.bucket kind).records.Nodup :=
    fun kind => (document.bucket kind).distinct.of_map
  refine List.nodup_append.2 ⟨hkind .target, hkind .host, ?_⟩
  rintro first hfirst second hsecond rfl
  have htarget : first.install = .target := (h.of_mem_bucket hfirst).1
  have hhost : first.install = .host := (h.of_mem_bucket hsecond).1
  rw [htarget] at hhost
  cases hhost

end Document

namespace Assembly

variable {load : Loader}

/-! ## Records -/

theorem versionOf_reportedVersion (package : Package) :
    VersionOf package package.reportedVersion := by
  have hlacking : ∀ {text? : Option String}, nonEmpty? text? = none → Lacking text? := by
    intro text? hnone text htext
    simpa [nonEmpty?, htext] using hnone
  have hgiven : ∀ {text? : Option String} {text : String}, nonEmpty? text? = some text →
      text? = some text ∧ text ≠ "" := by
    intro text? text hsome
    simpa [nonEmpty?, Option.filter_eq_some_iff] using hsome
  unfold Package.reportedVersion
  cases hversion : nonEmpty? package.version? with
  | some text => exact .version (hgiven hversion).1 (hgiven hversion).2
  | none =>
    cases hrevision : nonEmpty? package.revision? with
    | some text => exact .revision (hlacking hversion) (hgiven hrevision).1 (hgiven hrevision).2
    | none => exact .absent (hlacking hversion) (hlacking hrevision)

theorem hashesOf_hashes (package : Package) : HashesOf load package (hashes load package).2 := by
  unfold hashes
  cases hfile : package.hashFile? with
  | none => exact .absent hfile
  | some path =>
    cases hload : load path with
    | ok manifest => simpa [hload] using .loaded hfile hload
    | error error => simpa [hload] using .unloadable hfile hload

/-- The record of a package with the hashes that its manifest gives. -/
def reported (load : Loader) (package : Package) : Record :=
  record package (hashes load package).2

theorem describes_reported (package : Package) :
    Describes load package (reported load package) where
  name := rfl
  version := versionOf_reportedVersion package
  site := rfl
  install := rfl
  vcs := rfl
  licenses := rfl
  hashes := hashesOf_hashes package
  uid := rfl

/-- A bucket of the records of packages reports these packages. -/
theorem reports_ofRecords (packages : List Package) :
    (Bucket.ofRecords (packages.map (reported load))).Reports load packages where
  names := by
    rw [Bucket.names_ofRecords, List.map_map]
    rfl
  latest := by
    intro record hrecord
    obtain ⟨before, after, hsplit, hafter⟩ := Bucket.mem_ofRecords_iff.1 hrecord
    obtain ⟨first, rest, rfl, -, hrest⟩ := List.map_eq_append_iff.1 hsplit
    obtain ⟨package, last, rfl, rfl, rfl⟩ := List.map_eq_cons_iff.1 hrest
    refine ⟨first, package, last, rfl, describes_reported package, ?_⟩
    intro later hlater
    exact hafter (reported load later) (List.mem_map_of_mem hlater)

/-! ## One package and many -/

/-- The packages that have sources of their own. -/
def sourced (packages : List Package) : List Package := packages.filter (·.vcs ≠ .none)

/-- The packages of an install kind. -/
def ofKind (kind : Install) (packages : List Package) : List Package :=
  packages.filter (·.install = kind)

/-- One more package adds to the bucket of its own kind. -/
theorem ofRecords_ofKind_concat (kind : Install) (packages : List Package) (package : Package) :
    Bucket.ofRecords ((ofKind kind (packages ++ [package])).map (reported load)) =
      if package.install = kind then
        (Bucket.ofRecords ((ofKind kind packages).map (reported load))).insert
          (reported load package)
      else Bucket.ofRecords ((ofKind kind packages).map (reported load)) := by
  by_cases hkind : package.install = kind
  · have hlast : ofKind kind (packages ++ [package]) = ofKind kind packages ++ [package] := by
      simp [ofKind, hkind]
    rw [if_pos hkind, hlast, List.map_append, List.map_singleton, Bucket.ofRecords_concat]
  · have hlast : ofKind kind (packages ++ [package]) = ofKind kind packages := by
      simp [ofKind, hkind]
    rw [if_neg hkind, hlast]

/-- What packages with sources amount to: each bucket takes its own kind, and the
    list of names takes all. -/
def amountOf (load : Loader) (packages : List Package) : Assembly where
  packages := .ofRecords ((ofKind .target packages).map (reported load))
  hostPackages := .ofRecords ((ofKind .host packages).map (reported load))
  names := (packages.map (·.name.text)).eraseDups

theorem insert_amountOf (packages : List Package) (package : Package) :
    (amountOf load packages).insert (reported load package) =
      amountOf load (packages ++ [package]) := by
  simp only [amountOf, ofRecords_ofKind_concat, List.map_append, List.map_singleton,
    Bucket.eraseDups_concat]
  rfl

/-- One package. -/
theorem add_amountOf (seen : List Package) (package : Package) :
    (add load (amountOf load (sourced seen)) package).2 =
      amountOf load (sourced (seen ++ [package])) := by
  by_cases hskip : package.vcs = .none
  · have hsourced : sourced (seen ++ [package]) = sourced seen := by
      simp [sourced, hskip]
    simp [add, hskip, hsourced]
  · have hsourced : sourced (seen ++ [package]) = sourced seen ++ [package] := by
      simp [sourced, hskip]
    rw [hsourced, ← insert_amountOf]
    simp [add, hskip, reported]

/-- A list of packages. -/
theorem gather_amountOf (seen packages : List Package) :
    (gather load (amountOf load (sourced seen)) packages).2 =
      amountOf load (sourced (seen ++ packages)) := by
  induction packages generalizing seen with
  | nil => simp [gather]
  | cons package rest ih =>
    have hnext := ih (seen ++ [package])
    rw [← add_amountOf, List.append_assoc, List.singleton_append] at hnext
    exact hnext

/-! ## What happens -/

/-- What happens when a package is taken in. -/
def course (load : Loader) (package : Package) : List Event := (add load .empty package).1

/-- A package's manifest is loaded first, if there is one to load; a warning comes
    after it. -/
theorem course_eq (package : Package) :
    course load package = (Generation.manifestPaths [package]).map .load ++
      (complaint? load package).toList.map .warning := by
  by_cases hskip : package.vcs = .none
  · simp [course, add, hskip, Generation.manifestPaths, complaint?]
  · have hcourse : course load package = (hashes load package).1 := by simp [course, add, hskip]
    rw [hcourse]
    cases hfile : package.hashFile? with
    | none => simp [hashes, hfile, hskip, Generation.manifestPaths, complaint?]
    | some path =>
      cases hload : load path <;>
        simp [hashes, hfile, hload, hskip, Generation.manifestPaths, complaint?]

theorem gather_events (assembly : Assembly) (packages : List Package) :
    (gather load assembly packages).1 = packages.flatMap (course load) := by
  induction packages generalizing assembly with
  | nil => rfl
  | cons package rest ih =>
    have hcourse : (Assembly.add load assembly package).1 = course load package := by
      unfold course Assembly.add
      split <;> rfl
    rw [List.flatMap_cons, ← hcourse, ← ih (Assembly.add load assembly package).2]
    rfl

/-- Manifests are loaded in the order of the packages, and none for a package that
    is skipped. -/
theorem calls_gather (assembly : Assembly) (packages : List Package) :
    calls (gather load assembly packages).1 =
      (Generation.manifestPaths packages).map .load := by
  rw [gather_events]
  induction packages with
  | nil => rfl
  | cons package rest ih =>
    rw [List.flatMap_cons, calls_append, ih, course_eq, calls_append, calls_load, calls_warning,
      List.append_nil, ← List.map_append, ← Generation.manifestPaths_append, List.singleton_append]

theorem warnings_gather (assembly : Assembly) (packages : List Package) :
    warnings (gather load assembly packages).1 = packages.filterMap (complaint? load) := by
  rw [gather_events]
  induction packages with
  | nil => rfl
  | cons package rest ih =>
    rw [List.flatMap_cons, warnings_append, ih, course_eq, warnings_append, warnings_load,
      warnings_warning, List.nil_append]
    cases hcomplaint : complaint? load package <;> simp [hcomplaint]

/-! ## The document -/

theorem assemble_document (stamp : Stamp) (packages : List Package) :
    (assemble load stamp packages).2 = (amountOf load (sourced packages)).document stamp :=
  congrArg (document · stamp) (gather_amountOf [] packages)

/-- An assembled document reports the packages that have sources. -/
theorem reports_assemble (stamp : Stamp) (packages : List Package) :
    (assemble load stamp packages).2.Reports load (sourced packages) := by
  rw [assemble_document]
  intro kind
  cases kind with
  | target => exact reports_ofRecords (ofKind .target (sourced packages))
  | host => exact reports_ofRecords (ofKind .host (sourced packages))

theorem sourced_insert {skipped : Package} (h : skipped.vcs = .none)
    (before after : List Package) :
    sourced (before ++ skipped :: after) = sourced (before ++ after) := by
  simp [sourced, h]

end Assembly

/-- **Assembly.** Take the packages that have sources.  Each bucket reports those
    of its install kind; the project is identified by all their names, each once,
    in the order in which they came first.  Their manifests are loaded in order,
    and the warnings tell, in the order of the packages, who was skipped and
    whose manifest could not be loaded.  A package without sources changes
    neither the document nor what is loaded, wherever it stands. -/
theorem assemble_reports (load : Loader) (stamp : Stamp) (packages : List Package) :
    let reportable := packages.filter (·.vcs ≠ .none)
    let run := assemble load stamp packages
    (∀ kind, (run.2.bucket kind).Reports load (reportable.filter (·.install = kind))) ∧
    run.2.metadata.projectId =
      Identity.projectId (reportable.map (·.name.text)).eraseDups ∧
    calls run.1 = (reportable.filterMap (·.hashFile?)).map .load ∧
    warnings run.1 = packages.filterMap (complaint? load) ∧
    ∀ before skipped after, packages = before ++ skipped :: after → skipped.vcs = .none →
      let other := assemble load stamp (before ++ after)
      run.2 = other.2 ∧ calls run.1 = calls other.1 := by
  intro reportable run
  have hdocument : run.2 = (Assembly.amountOf load reportable).document stamp :=
    Assembly.assemble_document stamp packages
  have hcalls : calls run.1 = (Generation.manifestPaths packages).map .load :=
    Assembly.calls_gather .empty packages
  refine ⟨Assembly.reports_assemble stamp packages, ?_, hcalls,
    Assembly.warnings_gather .empty packages, ?_⟩
  · rw [hdocument]
    rfl
  · intro before skipped after hsplit hskip other
    have hsourced : reportable = Assembly.sourced (before ++ after) := by
      rw [← Assembly.sourced_insert hskip, ← hsplit]
      rfl
    constructor
    · rw [hdocument, hsourced]
      exact (Assembly.assemble_document stamp (before ++ after)).symm
    · have hother : calls other.1 = (Generation.manifestPaths (before ++ after)).map .load :=
        Assembly.calls_gather .empty (before ++ after)
      rw [hcalls, hother]
      exact congrArg (fun list => (list.filterMap (·.hashFile?)).map Event.load) hsourced

/-- A loader that finds no manifest. -/
def noManifests : Loader := fun path => .error (.unreadable path "not found")

/-- A name that comes again in both buckets, and a package without sources in
    between. -/
theorem assemble_reports_repeated :
    let zlib : Package := { name := ⟨"zlib", by decide⟩, hashFile? := some ⟨"zlib.hash"⟩ }
    let group : Package :=
      { name := ⟨"group", by decide⟩, vcs := .none, hashFile? := some ⟨"group.hash"⟩ }
    let curl : Package := { name := ⟨"curl", by decide⟩ }
    let stamp : Stamp := ⟨"id", "now"⟩
    let others := [curl, { zlib with install := .host }, { zlib with version? := some "2" }]
    let run := assemble noManifests stamp ([zlib] ++ group :: others)
    run.2.packages.names = ["zlib", "curl"] ∧ run.2.hostPackages.names = ["zlib"] ∧
      calls run.1 = List.replicate 3 (.load ⟨"zlib.hash"⟩) ∧
      run.2 = (assemble noManifests stamp ([zlib] ++ others)).2 := by
  intro zlib group curl stamp others run
  obtain ⟨hbuckets, -, hcalls, -, hskip⟩ :=
    assemble_reports noManifests stamp ([zlib] ++ group :: others)
  refine ⟨?_, ?_, ?_, (hskip [zlib] group others rfl rfl).1⟩
  · exact (hbuckets .target).names.trans (by decide)
  · exact (hbuckets .host).names.trans (by decide)
  · exact hcalls.trans (by decide)

end BillOfMaterials
