import BillOfMaterials.Markup.Node
import BillOfMaterials.Report.Spdx
import BillOfMaterials.Report.Xml

/-! # The SPDX report in RDF/XML

    A license expression is written as nested resources: sets, the or-later
    operator and the exception operator.

    * `license` is the element of a property that holds a license.
    * `package` describes a package. -/

namespace BillOfMaterials.Report.SpdxRdf

open Markup Spdx

/-! ## Names -/

def licensesBase : String := "http://spdx.org/licenses/"

def termNoAssertion : String := "http://spdx.org/rdf/terms#noassertion"

def termNone : String := "http://spdx.org/rdf/terms#none"

def termDescribes : String := "http://spdx.org/rdf/terms#relationshipType_describes"

def licenseUri (id : String) : String := licensesBase ++ id

def exceptionUri (exception : String) : String := licensesBase ++ exception ++ ".html"

/-! ## Licenses -/

/-- A license or any later version of it. -/
def orLater (id : String) : Node :=
  .block "spdx:OrLaterOperator" [] [.resource "spdx:member" (licenseUri id)]

/-- The license of a leaf, apart from any exception, as a member. -/
def baseMember (parts : LeafParts) : Node :=
  if parts.orLater then .block "spdx:member" [] [orLater parts.id]
  else .resource "spdx:member" (licenseUri parts.id)

/-- The operator that a leaf with an or-later mark or an exception stands for. -/
def leafOperator (parts : LeafParts) : Node :=
  match parts.exception? with
  | some exception =>
    .block "spdx:WithExceptionOperator" []
      [baseMember parts, .resource "spdx:licenseException" (exceptionUri exception)]
  | none => orLater parts.id

/-- A property that holds a leaf.  A license alone is referred to by the
    property itself. -/
def leaf (property : String) (parts : LeafParts) : Node :=
  if parts.exception?.isNone && !parts.orLater then .resource property (licenseUri parts.id)
  else .block property [] [leafOperator parts]

def setElement : Polarity → String
  | .all => "spdx:ConjunctiveLicenseSet"
  | .any => "spdx:DisjunctiveLicenseSet"

mutual

/-- A property that holds a license. -/
def license (property : String) : License → Node
  | .leaf text => leaf property (.ofText text)
  | .set p parts => .block property [] [.block (setElement p) [] (members parts)]

/-- The members of a set. -/
def members : List License → List Node
  | [] => []
  | part :: rest => license "spdx:member" part :: members rest

end

/-- What a report says of a package's licenses: the declared and the concluded
    one. -/
def licenseNodes : DeclaredLicense → List Node
  | .expression tree =>
    [license "spdx:licenseDeclared" tree, .resource "spdx:licenseConcluded" termNoAssertion]
  | .noAssertion =>
    [.resource "spdx:licenseDeclared" termNoAssertion,
      .resource "spdx:licenseConcluded" termNoAssertion]
  | .none =>
    [.resource "spdx:licenseDeclared" termNone, .resource "spdx:licenseConcluded" termNone]

/-! ## Packages and the document -/

def downloadLocation (site? : Option String) : Node :=
  match nonEmpty? site? with
  | some site => .text "spdx:downloadLocation" site
  | none => .resource "spdx:downloadLocation" termNone

def package (base : String) (record : Record) : Node :=
  .block "spdx:Package" [("rdf:about", base ++ "#" ++ packageId record.name)]
    ([ .text "spdx:specVersion" version,
       .text "spdx:name" record.name,
       .text "spdx:versionInfo" record.version,
       downloadLocation record.site?,
       .text "spdx:filesAnalyzed" "false" ] ++
     licenseNodes (.ofList record.licenses))

/-- The statement that the document describes a package, with that package. -/
def relationship (base : String) (record : Record) : Node :=
  .block "spdx:relationship" []
    [ .block "spdx:Relationship" []
        [ .resource "spdx:relationshipType" termDescribes,
          .block "spdx:relatedSpdxElement" [] [package base record] ] ]

def root (document : Document) : Node :=
  let metadata := document.metadata
  let base := documentNamespace metadata
  .block "rdf:RDF"
    [ ("xmlns:rdf", "http://www.w3.org/1999/02/22-rdf-syntax-ns#"),
      ("xmlns:spdx", "http://spdx.org/rdf/terms#"),
      ("xmlns:rdfs", "http://www.w3.org/2000/01/rdf-schema#") ]
    [ .block "spdx:SpdxDocument" [("rdf:about", base ++ "#" ++ documentId)]
        ([ .text "spdx:specVersion" version,
           .resource "spdx:dataLicense" (licenseUri dataLicense),
           .text "spdx:name" metadata.projectId,
           .block "spdx:creationInfo" []
             [ .block "spdx:CreationInfo" []
                 [ .text "spdx:created" metadata.datetime,
                   .text "spdx:creator" (creator metadata),
                   .text "spdx:licenseListVersion" licenseListVersion ] ] ] ++
         document.records.map (relationship base)) ]

def render (document : Document) : String :=
  Markup.line 0 Xml.declaration ++ (root document).render 0

end BillOfMaterials.Report.SpdxRdf
