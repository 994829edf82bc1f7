import BillOfMaterials.Document

/-! # The CSV report

    One record of seven fields for each package, after a record of their names.
    Records end in a carriage return and a line feed, and a field with a comma,
    a quote or a line break is quoted. -/

namespace BillOfMaterials.Report.Csv

/-- Characters that a field has to be quoted for. -/
def isSpecial (c : Char) : Bool := c == ',' || c == '"' || c == '\r' || c == '\n'

/-- A quote inside a quoted field is written twice. -/
def doubleQuote (c : Char) : List Char := if c = '"' then ['"', '"'] else [c]

def field (value : String) : String :=
  if value.toList.any isSpecial then
    "\"" ++ String.ofList (value.toList.flatMap doubleQuote) ++ "\""
  else value

/-- A record with its end. -/
def row (values : List String) : String :=
  String.intercalate "," (values.map field) ++ "\r\n"

/-- The names of the fields. -/
def header : List String :=
  ["name", "version", "install-type", "vcs-type", "site", "licenses", "uid"]

/-- The fields of a package. -/
def fields (record : Record) : List String :=
  [record.name, record.version, record.install.name, record.vcs.name, record.site?.getD "",
    String.intercalate "; " record.licenses, record.uid]

def render (document : Document) : String :=
  row header ++ String.join (document.records.map (row ∘ fields))

end BillOfMaterials.Report.Csv
