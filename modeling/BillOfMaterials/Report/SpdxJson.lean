import BillOfMaterials.Json
import BillOfMaterials.Report.Spdx

/-! # The SPDX report in JSON

    A license is declared as one expression; `NONE` and `NOASSERTION` stand for
    a package without licenses and for licenses that form no expression. -/

namespace BillOfMaterials.Report.SpdxJson

open Spdx

def noneText : String := "NONE"

def noAssertionText : String := "NOASSERTION"

/-- The declared and the concluded license.  Nothing is ever concluded about
    the licenses that a package has. -/
def licenseTexts : DeclaredLicense → String × String
  | .none => (noneText, noneText)
  | .noAssertion => (noAssertionText, noAssertionText)
  | .expression tree => (tree.render, noAssertionText)

/-- A package.  An empty version is left out. -/
def package (record : Record) : Json :=
  let (declared, concluded) := licenseTexts (.ofList record.licenses)
  .object
    ([("SPDXID", .text (packageId record.name)), ("name", .text record.name)] ++
     (if record.version.isEmpty then [] else [("versionInfo", .text record.version)]) ++
     [ ("downloadLocation", .text ((nonEmpty? record.site?).getD noneText)),
       ("filesAnalyzed", .bool false),
       ("licenseConcluded", .text concluded),
       ("licenseDeclared", .text declared) ])

/-- The statement that the document describes a package. -/
def relationship (record : Record) : Json :=
  .object
    [ ("spdxElementId", .text documentId),
      ("relationshipType", .text "DESCRIBES"),
      ("relatedSpdxElement", .text (packageId record.name)) ]

def json (document : Document) : Json :=
  let metadata := document.metadata
  .object
    [ ("SPDXID", .text documentId),
      ("spdxVersion", .text version),
      ("dataLicense", .text dataLicense),
      ("name", .text metadata.projectId),
      ("documentNamespace", .text (documentNamespace metadata)),
      ("creationInfo", .object
        [ ("created", .text metadata.datetime),
          ("creators", .list [.text (creator metadata)]),
          ("licenseListVersion", .text licenseListVersion) ]),
      ("packages", .list (document.records.map package)),
      ("relationships", .list (document.records.map relationship)) ]

def render (document : Document) : String := (json document).pretty 0

end BillOfMaterials.Report.SpdxJson
