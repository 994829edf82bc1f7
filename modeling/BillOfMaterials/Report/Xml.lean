import BillOfMaterials.Document
import BillOfMaterials.Markup.Node

/-! # The XML report

    What identifies the report stands in attributes of the root; each bucket is
    an element.  The host's element is left out where it has no packages. -/

namespace BillOfMaterials.Report.Xml

open Markup

/-- The first line of every XML report. -/
def declaration : String := "<?xml version=\"1.0\" encoding=\"utf-8\"?>"

def hash (entry : Manifest.Entry) : Node :=
  .text "hash" entry.digest [("algorithm", entry.algorithm.render), ("asset", entry.asset)]

/-- A package's site, if it has one, be it empty. -/
def site (site? : Option String) : List Node :=
  match site? with
  | some site => [.text "site" site]
  | none => []

def package (record : Record) : Node :=
  .block "package" [("name", record.name)]
    (.text "version" record.version :: site record.site? ++
      [ .text "install-type" record.install.name,
        .text "vcs-type" record.vcs.name,
        .block "licenses" [] (record.licenses.map fun license => .text "license" license),
        .block "hashes" [] (record.hashes.entries.map hash),
        .text "uid" record.uid ])

def bucket (name : String) (bucket : Bucket) : Node :=
  .block name [] (bucket.records.map package)

def root (document : Document) : Node :=
  let metadata := document.metadata
  .block "sbom"
    [ ("type", Document.type),
      ("report-id", metadata.reportId),
      ("schema-version", Document.schemaVersion),
      ("tool-version", metadata.toolVersion),
      ("project-id", metadata.projectId),
      ("datetime", metadata.datetime) ]
    (bucket "packages" document.packages ::
      if document.hostPackages.isEmpty then []
      else [bucket "host-packages" document.hostPackages])

def render (document : Document) : String :=
  Markup.line 0 declaration ++ (root document).render 0

end BillOfMaterials.Report.Xml
