import BillOfMaterials.Document
import BillOfMaterials.Identity
import BillOfMaterials.License.Input

/-! # What the SPDX reports share

    * `packageId` names a package inside a document.
    * `DeclaredLicense` is what a report says of a package's licenses. -/

namespace BillOfMaterials.Report.Spdx

/-! ## Names -/

def version : String := "SPDX-2.3"

def licenseListVersion : String := "3.25"

/-- The license of the report's own data. -/
def dataLicense : String := "CC0-1.0"

def documentId : String := "SPDXRef-DOCUMENT"

/-- The name space of a report. -/
def documentNamespace (metadata : Metadata) : String :=
  "https://spdx.org/spdxdocs/" ++ metadata.projectId ++ "-" ++ metadata.reportId

def creator (metadata : Metadata) : String :=
  "Tool: " ++ Identity.toolName ++ "-" ++ metadata.toolVersion

/-- A character of an identifier: ASCII letters, digits, `.` and `-`; any other
    becomes `-`. -/
def idChar (c : Char) : Char := if c.isAlphanum || c == '.' || c == '-' then c else '-'

/-- The identifier of a package in a document. -/
def packageId (name : String) : String :=
  "SPDXRef-pkg-" ++ String.ofList (name.toList.map idChar)

/-! ## Licenses -/

/-- What a report declares of a package's licenses. -/
inductive DeclaredLicense where
  /-- The package lists no license. -/
  | none
  /-- The listed licenses form no expression. -/
  | noAssertion
  | expression (tree : License)

/-- The licenses of a list, any one of which may be chosen. -/
def DeclaredLicense.ofList (licenses : List String) : DeclaredLicense :=
  if licenses.isEmpty then .none
  else
    match (LicenseInput.anyOf licenses).parse with
    | some tree => .expression tree
    | .none => .noAssertion

end BillOfMaterials.Report.Spdx
