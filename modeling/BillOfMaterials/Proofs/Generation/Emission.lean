import Mathlib.Data.List.Nodup
import BillOfMaterials.Proofs.Assembly.Contents
import BillOfMaterials.Proofs.Path.Joining

/-! # The course of a generating run

    A run asks for the directory first, then loads manifests, then writes
    reports until one is refused.  Its result says which of these it was, and so
    does the one message at its end.

    * `Format.Selected` says which formats selectors ask for, and in what order;
      `reportFile` names the file of each format and the report that stands in it.
    * `Emitted` says how far the reports get; one report keeps it
      (`Emitted.cons`), and so does a list of them (`emitted_writeReports`).
    * `verdicts_execute`: a run that writes all its reports says so once;
      `verdicts_generate_of_error`: one that does not ends with an error.
    * `generate_protocol` puts all of it together. -/

namespace BillOfMaterials

/-! ## Selected formats -/

/-- The formats that selectors ask for: the text report without a selector, else
    what any of them asks for, each once and in writing order. -/
structure Format.Selected (selectors : List Selector) (formats : List Format) : Prop where
  ordered : formats.Sublist [.csv, .html, .json, .spdxJson, .spdxRdf, .text, .xml]
  once : formats.Nodup
  mem_iff : ∀ format, format ∈ formats ↔
    if selectors = [] then format = .text else .all ∈ selectors ∨ .only format ∈ selectors

theorem Format.mem_all (format : Format) : format ∈ Format.all := by
  cases format <;> decide

theorem Format.selected_selection (selectors : List Selector) :
    Format.Selected selectors (Format.selection selectors) := by
  cases selectors with
  | nil =>
    refine ⟨by decide, by decide, ?_⟩
    intro format
    simp [Format.selection]
  | cons first rest =>
    have hselection : Format.selection (first :: rest) = Format.all.filter fun format =>
        Selector.all ∈ first :: rest ∨ .only format ∈ first :: rest := rfl
    have hordered : (Format.selection (first :: rest)).Sublist Format.all := by
      rw [hselection]
      exact List.filter_sublist
    refine ⟨hordered, hordered.nodup (by decide), ?_⟩
    intro format
    rw [hselection, List.mem_filter, if_neg (List.cons_ne_nil first rest), decide_eq_true_iff]
    exact and_iff_right (Format.mem_all format)

/-! ## Messages at the end -/

/-- The event tells how a run ended. -/
def Event.isVerdict : Event → Bool
  | .completion .. | .error .. => true
  | _ => false

def verdicts (events : List Event) : List Event := events.filter Event.isVerdict

@[simp] theorem verdicts_append (first second : List Event) :
    verdicts (first ++ second) = verdicts first ++ verdicts second := by
  simp [verdicts]

/-- Taking in packages is not the end of a run. -/
theorem verdicts_gather (load : Loader) (assembly : Assembly) (packages : List Package) :
    verdicts (Assembly.gather load assembly packages).1 = [] := by
  have hload : ∀ paths : List Path, verdicts (paths.map .load) = [] := by
    intro paths
    simp [verdicts, Event.isVerdict]
  have hwarning : ∀ messages : List String, verdicts (messages.map .warning) = [] := by
    intro messages
    simp [verdicts, Event.isVerdict]
  rw [Assembly.gather_events]
  induction packages with
  | nil => rfl
  | cons package rest ih =>
    rw [List.flatMap_cons, verdicts_append, ih, Assembly.course_eq, verdicts_append, hload, hwarning]
    rfl

namespace Failure

/-- The character is no line break. -/
theorem ne_lineBreak_of_mem_oneLine {text : String} {c : Char} (h : c ∈ (oneLine text).toList) :
    c ≠ '\r' ∧ c ≠ '\n' := by
  rw [oneLine, String.toList_ofList] at h
  obtain ⟨d, -, rfl⟩ := List.mem_map.1 h
  split
  · decide
  · next hd => simpa using hd

theorem oneLine_append (first second : String) :
    oneLine (first ++ second) = oneLine first ++ oneLine second := by
  simp [oneLine, String.ofList_append]

/-- The summary of a refusal by the disk gives the path and what the system said. -/
theorem exists_summary_eq {failure : Failure} {path : Path} {details : String}
    (h : failure = .unwritable path details ∨ failure = .outputUnavailable path details) :
    ∃ what, failure.summary = what ++ oneLine path.text ++ ": " ++ oneLine details := by
  have hsplit : ∀ what : String, oneLine (what ++ path.text ++ ": " ++ details) =
      oneLine what ++ oneLine path.text ++ ": " ++ oneLine details := by
    intro what
    have hcolon : oneLine ": " = ": " := by decide
    rw [oneLine_append, oneLine_append, oneLine_append, hcolon]
  rcases h with rfl | rfl
  · exact ⟨_, hsplit "unable to write SBOM file "⟩
  · exact ⟨_, hsplit "unable to prepare SBOM directory "⟩

end Failure

namespace Generation

/-! ## Reports -/

theorem fileName?_target (directory : Path) (format : Format) :
    (target directory format).fileName? = some format.fileName := by
  have hplain : Path.IsPlainName format.fileName := by cases format <;> decide
  exact Path.fileName?_join hplain directory

/-- Formats have files of their own in a directory. -/
theorem target_injective (directory : Path) : Function.Injective (target directory) := by
  intro first second heq
  have hname : some first.fileName = some second.fileName := by
    rw [← fileName?_target directory first, ← fileName?_target directory second, heq]
  revert hname
  cases first <;> cases second <;> decide

section emission

variable (write : Path → Except Failure Unit) (directory : Path) (document : Document)

/-- The file of a format: where it is, and the report of the document that it holds. -/
def reportFile : Format → Path × String
  | .csv => (directory.join ⟨"sbom.csv"⟩, Report.Csv.render document)
  | .html => (directory.join ⟨"sbom.html"⟩, Report.Html.render document)
  | .json => (directory.join ⟨"sbom.json"⟩, Report.Json.render document)
  | .spdxJson => (directory.join ⟨"sbom-spdx.json"⟩, Report.SpdxJson.render document)
  | .spdxRdf => (directory.join ⟨"sbom-spdx.xml"⟩, Report.SpdxRdf.render document)
  | .text => (directory.join ⟨"sbom.txt"⟩, Report.Text.render document)
  | .xml => (directory.join ⟨"sbom.xml"⟩, Report.Xml.render document)

theorem reportFile_eq (format : Format) :
    reportFile directory document format = (target directory format, format.report document) := by
  cases format <;> rfl

/-- The report of a format is written. -/
def written (format : Format) : Event :=
  let (path, content) := reportFile directory document format
  .write path content

/-- The report of a format is handed over, but not written. -/
def unwritten (format : Format) : Event :=
  let (path, content) := reportFile directory document format
  @Event.writeFailed path content

@[simp] theorem written_eq (format : Format) : written directory document format =
    .write (target directory format) (format.report document) := by
  rw [written, reportFile_eq]

@[simp] theorem unwritten_eq (format : Format) : unwritten directory document format =
    @Event.writeFailed (target directory format) (format.report document) := by
  rw [unwritten, reportFile_eq]

/-- How far the reports of some formats get: all of them are written, or those
    before the first that is refused. -/
inductive Emitted : List Format → List Event → Except Failure (List Path) → Prop where
  | complete {formats : List Format} :
      (∀ format ∈ formats, write (target directory format) = .ok ()) →
      Emitted formats (formats.map (written directory document))
        (.ok (formats.map (target directory)))
  | refused {before after : List Format} {format : Format} {failure : Failure} :
      (∀ earlier ∈ before, write (target directory earlier) = .ok ()) →
      write (target directory format) = .error failure →
      Emitted (before ++ format :: after)
        (before.map (written directory document) ++ [unwritten directory document format])
        (.error failure)

end emission

variable {write : Path → Except Failure Unit} {directory : Path} {document : Document}

/-- One report that is written, and then others. -/
theorem Emitted.cons {format : Format} {formats : List Format} {events : List Event}
    {result : Except Failure (List Path)} (hwrite : write (target directory format) = .ok ())
    (h : Emitted write directory document formats events result) :
    Emitted write directory document (format :: formats)
      (written directory document format :: events) (result.map (target directory format :: ·)) := by
  cases h with
  | complete hall => exact .complete (List.forall_mem_cons.2 ⟨hwrite, hall⟩)
  | @refused before _ _ _ hbefore hrefused =>
    have hwritten : ∀ earlier ∈ format :: before, write (target directory earlier) = .ok () :=
      List.forall_mem_cons.2 ⟨hwrite, hbefore⟩
    exact .refused hwritten hrefused

/-- A row of reports. -/
theorem emitted_writeReports (total current : Nat) (formats : List Format) :
    Emitted write directory document formats
      (calls (writeReports write directory document total current formats).1)
      (writeReports write directory document total current formats).2 := by
  -- How many are done already is told to the user only: the reports get as far with any
  -- number.
  induction formats generalizing current with
  | nil => exact .complete (by simp)
  | cons format rest ih =>
    cases hwrite : write (target directory format) with
    | error failure =>
      have h : Emitted write directory document ([] ++ format :: rest) _ (.error failure) :=
        .refused (by simp) hwrite
      simpa [writeReports, hwrite, calls, Event.isMessage] using h
    | ok =>
      have h := (ih (current + 1)).cons hwrite
      simpa [writeReports, hwrite, calls, Event.isMessage] using h

/-- The reports are all written just when none is refused. -/
theorem Emitted.eq_ok_iff {formats : List Format} {events : List Event}
    {result : Except Failure (List Path)}
    (h : Emitted write directory document formats events result) (paths : List Path) :
    result = .ok paths ↔ (∀ format ∈ formats, write (target directory format) = .ok ()) ∧
      paths = formats.map (target directory) := by
  cases h with
  | complete hall =>
    constructor
    · intro heq
      exact ⟨hall, (Except.ok.inj heq).symm⟩
    · rintro ⟨-, rfl⟩
      rfl
  | @refused before after format failure hbefore hrefused =>
    constructor
    · intro heq
      cases heq
    · -- The one that was refused is among the formats.
      rintro ⟨hall, -⟩
      have hwrite := hall format (by simp)
      rw [hrefused] at hwrite
      cases hwrite

theorem verdicts_writeReports (total current : Nat) (formats : List Format) :
    verdicts (writeReports write directory document total current formats).1 = [] := by
  induction formats generalizing current with
  | nil => rfl
  | cons format rest ih =>
    cases hwrite : write (target directory format) with
    | error failure => simp [writeReports, hwrite, verdicts, Event.isVerdict]
    | ok =>
      have hrest := ih (current + 1)
      simpa [writeReports, hwrite, verdicts, Event.isVerdict] using hrest

/-! ## Runs -/

section run

variable {around : Surroundings} {stamp : Stamp} {request : Request}

/-- Without a directory nothing else is asked. -/
theorem execute_of_refused {failure : Failure}
    (h : around.prepare request.outputDirectory = .error failure) :
    execute around stamp request = ([.prepare request.outputDirectory], .error failure) := by
  simp [execute, h]

/-- What is told after the reports: nothing if one of them was refused. -/
def closing (total : Nat) (directory : Path) : Except Failure (List Path) → List Event
  | .ok written => [.progress total total none, .completion (conclusion written.length directory)]
  | .error _ => []

theorem calls_closing (total : Nat) (directory : Path) (result : Except Failure (List Path)) :
    calls (closing total directory result) = [] := by
  cases result <;> rfl

/-- With a directory the packages are assembled and the reports are written. -/
theorem execute_of_prepared (h : around.prepare request.outputDirectory = .ok ()) :
    let directory := request.outputDirectory
    let assembling := assemble around.load stamp request.packages
    let formats := Format.selection request.selectors
    let writing := writeReports around.write directory assembling.2 formats.length 0 formats
    execute around stamp request =
      (.prepare directory :: .report (announcement request.packages.length) ::
        (assembling.1 ++ writing.1 ++ closing formats.length directory writing.2),
        writing.2.map fun written => { document := assembling.2, written }) := by
  intro directory assembling formats writing
  cases hwriting : writing.2 with
  | error failure =>
    simp [execute, h, directory, assembling, formats, writing, hwriting, closing, Except.map]
  | ok paths =>
    simp [execute, h, directory, assembling, formats, writing, hwriting, closing, Except.map]

/-- What is asked of the disk: the directory, then manifests, then reports. -/
theorem calls_execute (h : around.prepare request.outputDirectory = .ok ()) :
    let document := (assemble around.load stamp request.packages).2
    let formats := Format.selection request.selectors
    calls (execute around stamp request).1 = .prepare request.outputDirectory ::
      ((manifestPaths request.packages).map .load ++
        calls (writeReports around.write request.outputDirectory document formats.length 0
          formats).1) := by
  intro document formats
  have hcalls : calls (assemble around.load stamp request.packages).1 =
      (manifestPaths request.packages).map .load :=
    Assembly.calls_gather .empty request.packages
  rw [execute_of_prepared h, ← hcalls]
  show Event.prepare request.outputDirectory :: calls (_ ++ _ ++ closing _ _ _) = _
  rw [calls_append, calls_append, calls_closing, List.append_nil]

/-- A run tells of its completion once if it succeeds, and of no end otherwise. -/
theorem verdicts_execute : verdicts (execute around stamp request).1 =
    match (execute around stamp request).2 with
    | .ok response =>
      [.completion (conclusion response.written.length request.outputDirectory)]
    | .error _ => [] := by
  cases hprepare : around.prepare request.outputDirectory with
  | error failure =>
    rw [execute_of_refused hprepare]
    rfl
  | ok =>
    have hgather : verdicts (assemble around.load stamp request.packages).1 = [] :=
      verdicts_gather around.load .empty request.packages
    rw [execute_of_prepared hprepare]
    show verdicts (_ ++ _ ++ closing _ _ _) = _
    rw [verdicts_append, verdicts_append, hgather, verdicts_writeReports]
    cases (writeReports around.write request.outputDirectory
      (assemble around.load stamp request.packages).2 (Format.selection request.selectors).length 0
      (Format.selection request.selectors)).2 <;> rfl

/-- A run succeeds just when nothing that it asks for is refused. -/
theorem execute_eq_ok_iff (response : Response) :
    (execute around stamp request).2 = .ok response ↔
      (around.prepare request.outputDirectory = .ok () ∧
        ∀ format ∈ Format.selection request.selectors,
          around.write (target request.outputDirectory format) = .ok ()) ∧
      response =
        { document := (assemble around.load stamp request.packages).2
          written := (Format.selection request.selectors).map (target request.outputDirectory) } := by
  cases hprepare : around.prepare request.outputDirectory with
  | error failure =>
    rw [execute_of_refused hprepare]
    constructor
    · intro heq
      cases heq
    · rintro ⟨⟨heq, -⟩, -⟩
      cases heq
  | ok =>
    have hemitted : Emitted around.write request.outputDirectory
        (assemble around.load stamp request.packages).2 _ _ _ :=
      emitted_writeReports (Format.selection request.selectors).length 0
        (Format.selection request.selectors)
    rw [execute_of_prepared hprepare]
    show Except.map _ _ = _ ↔ _
    constructor
    · intro heq
      cases hresult : (writeReports around.write request.outputDirectory
        (assemble around.load stamp request.packages).2
        (Format.selection request.selectors).length 0 (Format.selection request.selectors)).2 with
      | error failure =>
        rw [hresult] at heq
        cases heq
      | ok paths =>
        rw [hresult] at heq
        obtain ⟨hall, hpaths⟩ := (hemitted.eq_ok_iff paths).1 hresult
        refine ⟨⟨rfl, hall⟩, ?_⟩
        rw [← hpaths]
        exact (Except.ok.inj heq).symm
    · rintro ⟨⟨-, hall⟩, rfl⟩
      rw [(hemitted.eq_ok_iff _).2 ⟨hall, rfl⟩]
      rfl

theorem head?_execute :
    (execute around stamp request).1.head? = some (.prepare request.outputDirectory) := by
  cases hprepare : around.prepare request.outputDirectory with
  | error failure =>
    rw [execute_of_refused hprepare]
    rfl
  | ok =>
    rw [execute_of_prepared hprepare]
    rfl

/-! ## Runs that report their failure -/

theorem generate_of_ok {response : Response}
    (h : (execute around stamp request).2 = .ok response) :
    generate around stamp request = ((execute around stamp request).1, true) := by
  simp only [generate]
  split
  · next events _ heq => rw [heq]
  · next events failure heq =>
    rw [heq] at h
    cases h

theorem generate_of_error {failure : Failure}
    (h : (execute around stamp request).2 = .error failure) :
    generate around stamp request =
      ((execute around stamp request).1 ++ [.error failure.summary], false) := by
  simp only [generate]
  split
  · next events _ heq =>
    rw [heq] at h
    cases h
  · next events other heq =>
    rw [heq] at h ⊢
    obtain rfl : other = failure := Except.error.inj h
    rfl

/-- What a run reports of its end tells how it ended. -/
theorem generate_eq_true_iff : (generate around stamp request).2 = true ↔
    ∃ response, (execute around stamp request).2 = .ok response := by
  cases hrun : (execute around stamp request).2 with
  | ok response =>
    rw [generate_of_ok hrun]
    exact ⟨fun _ => ⟨response, rfl⟩, fun _ => rfl⟩
  | error failure =>
    rw [generate_of_error hrun]
    constructor
    · intro hfalse
      cases hfalse
    · rintro ⟨response, heq⟩
      cases heq

theorem exists_failure_of_generate (h : (generate around stamp request).2 = false) :
    ∃ failure, (execute around stamp request).2 = .error failure := by
  cases hrun : (execute around stamp request).2 with
  | ok response =>
    rw [generate_of_ok hrun] at h
    cases h
  | error failure => exact ⟨failure, rfl⟩

/-- A success is told once, with the number of the reports. -/
theorem verdicts_generate_of_ok {response : Response}
    (h : (execute around stamp request).2 = .ok response) :
    verdicts (generate around stamp request).1 =
      [.completion (conclusion (Format.selection request.selectors).length
        request.outputDirectory)] := by
  have hresponse := ((execute_eq_ok_iff response).1 h).2
  rw [generate_of_ok h, verdicts_execute, h, hresponse]
  show [Event.completion (conclusion (List.map _ _).length _)] = _
  rw [List.length_map]

/-- A failure is told once.  The run itself has told of no end by then. -/
theorem verdicts_generate_of_error {failure : Failure}
    (h : (execute around stamp request).2 = .error failure) :
    verdicts (generate around stamp request).1 = [.error failure.summary] := by
  rw [generate_of_error h, verdicts_append, verdicts_execute, h]
  rfl

end run

/-- **Emission.** A run asks for its directory first, and asks nothing more if it
    is refused.  Otherwise it loads the manifests of the packages that have
    sources and then hands over the selected formats in their fixed order, each
    as the report of the one assembled document, up to the first that is refused.
    It succeeds with just these paths, which are all different, when nothing was
    refused.  A run that reports its end tells one completion if it succeeds;
    else its last event is the one error, a single line that ends with what the
    system said. -/
theorem generate_protocol (around : Surroundings) (stamp : Stamp) (request : Request) :
    let directory := request.outputDirectory
    let document := (assemble around.load stamp request.packages).2
    let formats := Format.selection request.selectors
    let run := execute around stamp request
    let told := generate around stamp request
    Format.Selected request.selectors formats ∧
    (formats.map (target directory)).Nodup ∧
    run.1.head? = some (.prepare directory) ∧
    (∀ failure, around.prepare directory = .error failure →
      run = ([.prepare directory], .error failure)) ∧
    (around.prepare directory = .ok () → ∃ emitted result,
      Emitted around.write directory document formats emitted result ∧
      calls run.1 =
        .prepare directory :: ((manifestPaths request.packages).map .load ++ emitted) ∧
      run.2 = result.map fun written => { document, written }) ∧
    (∀ response, run.2 = .ok response ↔
      (around.prepare directory = .ok () ∧
        ∀ format ∈ formats, around.write (target directory format) = .ok ()) ∧
      response = { document, written := formats.map (target directory) }) ∧
    (told.2 = true ↔ ∃ response, run.2 = .ok response) ∧
    (told.2 = true → told.1 = run.1 ∧
      verdicts told.1 = [.completion (conclusion formats.length directory)]) ∧
    (told.2 = false → ∃ failure, run.2 = .error failure ∧
      told.1 = run.1 ++ [.error failure.summary] ∧
      verdicts told.1 = [.error failure.summary] ∧
      (∀ c ∈ failure.summary.toList, c ≠ '\r' ∧ c ≠ '\n') ∧
      ∀ path details,
        failure = .unwritable path details ∨ failure = .outputUnavailable path details →
        ∃ what, failure.summary = what ++ Failure.oneLine path.text ++ ": " ++
          Failure.oneLine details) := by
  intro directory document formats run told
  have hselected := Format.selected_selection request.selectors
  refine ⟨hselected, List.Nodup.map (target_injective directory) hselected.once,
    head?_execute, ?_, ?_, execute_eq_ok_iff, generate_eq_true_iff, ?_, ?_⟩
  · intro failure hfailure
    exact execute_of_refused hfailure
  · intro hprepare
    refine ⟨_, _, emitted_writeReports formats.length 0 formats, calls_execute hprepare, ?_⟩
    exact congrArg Prod.snd (execute_of_prepared hprepare)
  · intro htrue
    obtain ⟨response, hresponse⟩ := generate_eq_true_iff.1 htrue
    exact ⟨congrArg Prod.fst (generate_of_ok hresponse), verdicts_generate_of_ok hresponse⟩
  · intro hfalse
    obtain ⟨failure, hfailure⟩ := exists_failure_of_generate hfalse
    refine ⟨failure, hfailure, congrArg Prod.fst (generate_of_error hfailure),
      verdicts_generate_of_error hfailure, ?_, ?_⟩
    · intro c hc
      exact Failure.ne_lineBreak_of_mem_oneLine hc
    · intro path details hrefused
      exact Failure.exists_summary_eq hrefused

/-- A disk that is full when the JSON report is written. -/
def fullDisk : Surroundings where
  prepare _ := .ok ()
  load := noManifests
  write path :=
    if path.fileName? = some "sbom.json" then .error (.unwritable path "No space\r\nleft")
    else .ok ()

/-- The selectors name three formats in no order and one of them twice: the second
    of the three is refused, and the third is never asked for. -/
theorem generate_protocol_fullDisk :
    let selectors := [.only .xml, .only .csv, .only .json, .only .csv]
    let request : Request := { packages := [], selectors, outputDirectory := ⟨"out"⟩ }
    let told := generate fullDisk ⟨"id", "now"⟩ request
    told.2 = false ∧
      verdicts told.1 = [.error "unable to write SBOM file out/sbom.json: No space  left"] ∧
      ∃ emitted result, calls (execute fullDisk ⟨"id", "now"⟩ request).1 =
        .prepare ⟨"out"⟩ :: emitted ∧
        Emitted fullDisk.write ⟨"out"⟩ (assemble noManifests ⟨"id", "now"⟩ []).2
          [.csv, .json, .xml] emitted result := by
  intro selectors request told
  obtain ⟨-, -, -, -, hprepared, -, -, -, hfailed⟩ :=
    generate_protocol fullDisk ⟨"id", "now"⟩ request
  have hcsv : fullDisk.write (target ⟨"out"⟩ .csv) = .ok () := by
    simp [fullDisk, fileName?_target, Format.fileName]
  have hjson : fullDisk.write (target ⟨"out"⟩ .json) =
      .error (.unwritable ⟨"out/sbom.json"⟩ "No space\r\nleft") := by
    have htarget : target ⟨"out"⟩ .json = ⟨"out/sbom.json"⟩ := by decide
    have hname := fileName?_target ⟨"out"⟩ .json
    rw [htarget] at hname ⊢
    simp [fullDisk, hname, Format.fileName]
  have hresult : (execute fullDisk ⟨"id", "now"⟩ request).2 =
      .error (.unwritable ⟨"out/sbom.json"⟩ "No space\r\nleft") := by
    have hformats : Format.selection selectors = [.csv, .json, .xml] := by decide
    rw [execute_of_prepared rfl]
    simp [request, hformats, writeReports, hcsv, hjson, Except.map]
  have hfalse : told.2 = false := congrArg Prod.snd (generate_of_error hresult)
  obtain ⟨failure, hfailure, -, hverdicts, -⟩ := hfailed hfalse
  obtain ⟨emitted, result, hemitted, hcalls, -⟩ := hprepared rfl
  rw [hresult] at hfailure
  obtain rfl := Except.error.inj hfailure
  exact ⟨hfalse, hverdicts, emitted, result, hcalls, hemitted⟩

end Generation

end BillOfMaterials
