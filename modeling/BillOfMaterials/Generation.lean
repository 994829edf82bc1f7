import BillOfMaterials.Assembly
import BillOfMaterials.Report

/-! # Generating reports

    A run makes the output directory ready, assembles the document and writes
    it in every selected format.  It ends at the first failure; reports that
    are written by then stay.

    * `Surroundings` answer how each step on the disk turns out.
    * `execute` is a run up to its result, `generate` also reports a failure. -/

namespace BillOfMaterials

/-- How the steps of a run turn out that depend on the disk. -/
structure Surroundings where
  /-- Makes a directory ready for reports. -/
  prepare : Path → Except Failure Unit
  load : Loader
  /-- Writes a report. -/
  write : Path → Except Failure Unit

/-- What is asked of a run. -/
structure Request where
  packages : List Package
  selectors : List Selector
  outputDirectory : Path

/-- What a run leaves. -/
structure Response where
  document : Document
  written : List Path

namespace Generation

/-! ## Writing -/

/-- Where the report of a format is written. -/
def target (directory : Path) (format : Format) : Path := directory.join ⟨format.fileName⟩

/-- Writes the reports of a document in order, `current` of `total` being done. -/
def writeReports (write : Path → Except Failure Unit) (directory : Path) (document : Document)
    (total : Nat) : Nat → List Format → List Event × Except Failure (List Path)
  | _, [] => ([], .ok [])
  | current, format :: rest =>
    let path := target directory format
    let content := format.report document
    let begun := Event.progress current total (some format.progress)
    match write path with
    | .error failure => ([begun, @Event.writeFailed path content], .error failure)
    | .ok () =>
      let (events, result) := writeReports write directory document total (current + 1) rest
      (begun :: .write path content :: events, result.map (path :: ·))

/-! ## Whole runs -/

/-- What is reported when a run begins. -/
def announcement (count : Nat) : String :=
  "📦 Assembling SBOM from " ++ count.repr ++ " package(s)"

/-- What is reported when a run is complete. -/
def conclusion (count : Nat) (directory : Path) : String :=
  "✅ Wrote " ++ count.repr ++ " SBOM file(s) to " ++ directory.text

/-- A run: what happens and how it ends. -/
def execute (around : Surroundings) (stamp : Stamp) (request : Request) :
    List Event × Except Failure Response :=
  let directory := request.outputDirectory
  match around.prepare directory with
  | .error failure => ([.prepare directory], .error failure)
  | .ok () =>
    let (assembling, document) := assemble around.load stamp request.packages
    let formats := Format.selection request.selectors
    let total := formats.length
    let (writing, result) := writeReports around.write directory document total 0 formats
    let begun := .prepare directory :: .report (announcement request.packages.length) ::
      (assembling ++ writing)
    match result with
    | .error failure => (begun, .error failure)
    | .ok written =>
      (begun ++ [.progress total total none, .completion (conclusion written.length directory)],
        .ok { document, written })

/-- A run that reports its failure as one line; whether every report was
    written. -/
def generate (around : Surroundings) (stamp : Stamp) (request : Request) : List Event × Bool :=
  match execute around stamp request with
  | (events, .ok _) => (events, true)
  | (events, .error failure) => (events ++ [.error failure.summary], false)

end Generation

end BillOfMaterials
