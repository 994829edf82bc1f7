import BillOfMaterials.Document

/-! # The text report

    The report that is written where no format is asked for: what identifies
    the report, then each bucket under its title.  An empty value is written as
    a dash. -/

namespace BillOfMaterials.Report.Text

/-- A value, or a dash for an empty one. -/
def orDash (value : String) : String := if value.isEmpty then "-" else value

def heading (title underline : String) : String := title ++ "\n" ++ underline ++ "\n\n"

/-- The hashes of a package, each on a line of its own. -/
def hashLines (entries : List Manifest.Entry) : String :=
  if entries.isEmpty then "  hashes:       -\n"
  else "  hashes:\n" ++ String.join (entries.map fun entry => "    " ++ entry.render ++ "\n")

def package (record : Record) : String :=
  record.name ++ "\n" ++
  "  version:      " ++ orDash record.version ++ "\n" ++
  "  install type: " ++ record.install.name ++ "\n" ++
  "  vcs type:     " ++ record.vcs.name ++ "\n" ++
  "  site:         " ++ orDash (record.site?.getD "") ++ "\n" ++
  "  licenses:     " ++
    (if record.licenses.isEmpty then "-" else String.intercalate ", " record.licenses) ++ "\n" ++
  hashLines record.hashes.entries ++
  "  uid:          " ++ record.uid ++ "\n\n"

/-- A bucket under its title. -/
def bucket (title : String) (bucket : Bucket) : String :=
  heading title (String.ofList (List.replicate title.length '-')) ++
    if bucket.isEmpty then "(none)\n\n" else String.join (bucket.records.map package)

def render (document : Document) : String :=
  let metadata := document.metadata
  heading "releng-tool SBOM" "================" ++
  "tool version:   " ++ metadata.toolVersion ++ "\n" ++
  "report id:      " ++ metadata.reportId ++ "\n" ++
  "project id:     " ++ metadata.projectId ++ "\n" ++
  "schema version: " ++ Document.schemaVersion ++ "\n" ++
  "generated:      " ++ metadata.datetime ++ "\n\n" ++
  bucket "Packages" document.packages ++
  if document.hostPackages.isEmpty then "" else bucket "Host packages" document.hostPackages

end BillOfMaterials.Report.Text
