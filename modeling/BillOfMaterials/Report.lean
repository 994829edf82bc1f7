import BillOfMaterials.Format
import BillOfMaterials.Report.Csv
import BillOfMaterials.Report.Html
import BillOfMaterials.Report.Json
import BillOfMaterials.Report.SpdxJson
import BillOfMaterials.Report.SpdxRdf
import BillOfMaterials.Report.Text
import BillOfMaterials.Report.Xml

/-! # Reports -/

namespace BillOfMaterials

/-- The report of a document in a format. -/
def Format.report (format : Format) (document : Document) : String :=
  match format with
  | .csv => Report.Csv.render document
  | .html => Report.Html.render document
  | .json => Report.Json.render document
  | .spdxJson => Report.SpdxJson.render document
  | .spdxRdf => Report.SpdxRdf.render document
  | .text => Report.Text.render document
  | .xml => Report.Xml.render document

end BillOfMaterials
