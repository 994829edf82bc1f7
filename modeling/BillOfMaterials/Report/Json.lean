import BillOfMaterials.Document
import BillOfMaterials.Json

/-! # The JSON report

    Each bucket is an object with the packages' names as keys, in the bucket's
    order.  The host's bucket is left out where it has no packages. -/

namespace BillOfMaterials.Report

/-- A manifest as a list of its entries. -/
def manifestJson (manifest : Manifest) : Json :=
  .list (manifest.entries.map fun entry => .object
    [ ("algorithm", .text entry.algorithm.render),
      ("digest", .text entry.digest),
      ("asset", .text entry.asset) ])

def recordJson (record : Record) : Json :=
  .object
    [ ("version", .text record.version),
      ("site", (record.site?.map .text).getD .null),
      ("install-type", .text record.install.name),
      ("vcs-type", .text record.vcs.name),
      ("licenses", .list (record.licenses.map .text)),
      ("hashes", manifestJson record.hashes),
      ("uid", .text record.uid) ]

/-- A bucket as an object that names its packages. -/
def bucketJson (bucket : Bucket) : Json :=
  .object (bucket.records.map fun record => (record.name, recordJson record))

def documentJson (document : Document) : Json :=
  let metadata := document.metadata
  .object
    ([ ("type", .text Document.type),
       ("report-id", .text metadata.reportId),
       ("schema-version", .text Document.schemaVersion),
       ("tool-version", .text metadata.toolVersion),
       ("project-id", .text metadata.projectId),
       ("datetime", .text metadata.datetime),
       ("packages", bucketJson document.packages) ] ++
     if document.hostPackages.isEmpty then []
     else [("host-packages", bucketJson document.hostPackages)])

def Json.render (document : Document) : String := (documentJson document).pretty 0

end BillOfMaterials.Report
