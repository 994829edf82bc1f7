import BillOfMaterials.Document
import BillOfMaterials.Markup.Node

/-! # The HTML report

    A page of its own: what identifies the report, and a table for each bucket.
    There is no table for the host where it has no packages. -/

namespace BillOfMaterials.Report.Html

open Markup

/-- The columns of a table. -/
def columns : List String :=
  ["Name", "Version", "Install type", "VCS type", "Site", "Licenses", "Hashes", "UID"]

def style : String :=
  "body\x7bfont-family:sans-serif\x7dtable\x7bborder-collapse:collapse\x7d" ++
    "th,td\x7bborder:1px solid #ccc;padding:4px 8px;text-align:left;vertical-align:top\x7d"

/-- Texts with line breaks between them. -/
def brokenLines : List String → List Inline
  | [] => []
  | [text] => [.text text]
  | text :: next :: rest => .text text :: .empty "br" [] :: brokenLines (next :: rest)

def cell (contents : List Inline) : Node := .line (.element "td" [] contents)

/-- A package's site as a link to it. -/
def siteCell (site? : Option String) : Node :=
  match nonEmpty? site? with
  | some site => cell [.element "a" [("href", site)] [.text site]]
  | none => cell []

/-- The row of a package. -/
def row (record : Record) : Node :=
  .block "tr" []
    [ .text "td" record.name,
      .text "td" record.version,
      .text "td" record.install.name,
      .text "td" record.vcs.name,
      siteCell record.site?,
      cell (brokenLines record.licenses),
      cell [.element "code" [] (brokenLines (record.hashes.entries.map (·.render)))],
      .text "td" record.uid ]

/-- The table of a bucket under its title. -/
def table (title : String) (bucket : Bucket) : List Node :=
  [ .text "h2" title,
    .block "table" [] (.block "tr" [] (columns.map fun column => .text "th" column) ::
      bucket.records.map row) ]

/-- A term and its value in the list of what identifies the report. -/
def item (term value : String) : List Node := [.text "dt" term, .text "dd" value]

def page (document : Document) : Node :=
  let metadata := document.metadata
  .block "html" [("lang", "en")]
    [ .block "head" []
        [ .line (.void "meta" [("charset", "utf-8")]),
          .text "title" ("SBOM " ++ metadata.projectId),
          .text "style" style ],
      .block "body" []
        (.text "h1" "releng-tool SBOM" ::
          .block "dl" []
            (item "Tool version" metadata.toolVersion ++ item "Report ID" metadata.reportId ++
              item "Project ID" metadata.projectId ++
              item "Schema version" Document.schemaVersion ++
              item "Generated" metadata.datetime) ::
          table "Packages" document.packages ++
          if document.hostPackages.isEmpty then [] else table "Host packages" document.hostPackages) ]

def render (document : Document) : String :=
  Markup.line 0 "<!DOCTYPE html>" ++ (page document).render 0

end BillOfMaterials.Report.Html
