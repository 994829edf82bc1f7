import BillOfMaterials.Text.Case

/-! # Report formats

    * `Format` are the kinds of report, in the order in which they are written.
    * `Selector` is what a user asks for: one format, or all of them.
    * `Format.selection` are the formats that selectors ask for together. -/

namespace BillOfMaterials

open Text

/-! ## Formats -/

inductive Format where
  | csv
  | html
  | json
  | spdxJson
  | spdxRdf
  | text
  | xml
  deriving DecidableEq, Repr

namespace Format

/-- Every format, in the order in which reports are written. -/
def all : List Format := [.csv, .html, .json, .spdxJson, .spdxRdf, .text, .xml]

/-- The name that selects a format. -/
def name : Format → String
  | .csv => "csv"
  | .html => "html"
  | .json => "json"
  | .spdxJson => "json-spdx"
  | .spdxRdf => "rdf-spdx"
  | .text => "text"
  | .xml => "xml"

/-- The file that holds a report. -/
def fileName : Format → String
  | .csv => "sbom.csv"
  | .html => "sbom.html"
  | .json => "sbom.json"
  | .spdxJson => "sbom-spdx.json"
  | .spdxRdf => "sbom-spdx.xml"
  | .text => "sbom.txt"
  | .xml => "sbom.xml"

/-- What a format is called in progress messages. -/
def label : Format → String
  | .csv => "CSV"
  | .html => "HTML"
  | .json => "JSON"
  | .spdxJson => "SPDX JSON"
  | .spdxRdf => "SPDX RDF/XML"
  | .text => "text"
  | .xml => "XML"

def progress (format : Format) : String := "📝 Generating " ++ format.label ++ " output..."

end Format

/-! ## Selectors -/

/-- A text that selects no format. -/
structure InvalidFormat where
  text : String
  deriving DecidableEq, Repr

def InvalidFormat.message (e : InvalidFormat) : String :=
  "Invalid format: " ++ e.text ++ ". Please specify one of 'csv', 'html', 'json', " ++
    "'json-spdx', 'rdf-spdx', 'text', 'xml' or 'all'"

/-- The format of a name, in any case. -/
def Format.ofText (text : String) : Except InvalidFormat Format :=
  match Format.all.find? (·.name = lowered text) with
  | some format => .ok format
  | none => .error ⟨text⟩

inductive Selector where
  | all
  | only (format : Format)
  deriving DecidableEq, Repr

/-- The selector of a text, in any case. -/
def Selector.ofText (text : String) : Except InvalidFormat Selector :=
  if lowered text = "all" then .ok .all else .only <$> Format.ofText text

def Selector.name : Selector → String
  | .all => "all"
  | .only format => format.name

/-- The formats that selectors ask for, each once, in writing order.  Without a
    selector it is the text report. -/
def Format.selection (selectors : List Selector) : List Format :=
  if selectors.isEmpty then [.text]
  else Format.all.filter fun format => Selector.all ∈ selectors ∨ .only format ∈ selectors

end BillOfMaterials
