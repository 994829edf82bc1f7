import BillOfMaterials.Proofs.Document.Agreement
import BillOfMaterials.Proofs.Markup.Spans
import BillOfMaterials.Report.Html

/-! # Values in the HTML report stay values

    * `Record.shape`: what the markup of a package's row depends on.
    * `cells` says what the row of a package is to hold, `rows` reads rows off tags.
    * `rows_row`: the cells of a row hold the values of its package; `rows_page` lifts
      this to the report.
    * `map_withoutHref_row`: the tags of a row are told from the shape; so reports on
      documents of the same shape have the same tags (`map_withoutHref_page`).
    * `render_inert`: both for the text of the report. -/

namespace BillOfMaterials

/-! ## Shapes -/

/-- Whether there is a site to link to, and how many licenses and hashes there are. -/
structure Record.Shape where
  hasSite : Bool
  licenses : Nat
  hashes : Nat
  deriving DecidableEq, Repr

def Record.shape (record : Record) : Record.Shape where
  hasSite := (nonEmpty? record.site?).isSome
  licenses := record.licenses.length
  hashes := record.hashes.entries.length

/-- In each bucket there are as many packages, and one by one they have the same shape. -/
structure Document.SameShape (first second : Document) : Prop where
  packages : first.packages.records.map (·.shape) = second.packages.records.map (·.shape)
  hostPackages :
    first.hostPackages.records.map (·.shape) = second.hostPackages.records.map (·.shape)

/-- The tag with the addresses of links erased. -/
def Markup.Tag.withoutHref : Tag → Tag
  | .opening name attributes => .opening name (attributes.map erase)
  | .alone name attributes => .alone name (attributes.map erase)
  | tag => tag
where
  erase : Attribute → Attribute := fun (key, value) => (key, if key = "href" then "" else value)

namespace Report.Html

open Markup

/-! ## What the report is to say -/

/-- A tag and texts after it, with line breaks between them. -/
def brokenTags (tag : Tag) : List String → List (Tag × String)
  | [] => [(tag, "")]
  | first :: rest => (tag, first) :: rest.map fun text => (.alone "br" [], text)

/-- A site is given twice, as the address of a link and as its text. -/
def siteTags (site? : Option String) : List (Tag × String) :=
  match nonEmpty? site? with
  | some site => [(.opening "td" [], ""), (.opening "a" [("href", site)], site), (.closing "a", "")]
  | none => [(.opening "td" [], "")]

/-- A listed hash in one line. -/
def hashLine (entry : Manifest.Entry) : String :=
  let (algorithm, digest, asset) := entry.written
  algorithm ++ " " ++ digest ++ " " ++ asset

theorem render_eq_hashLine (entry : Manifest.Entry) : entry.render = hashLine entry := by
  rw [hashLine, entry.written_eq, Manifest.Entry.render]

/-- The cells of a package's row, as tags with the text after each. -/
def cells (record : Record) : List (List (Tag × String)) :=
  [ [(.opening "td" [], record.name)],
    [(.opening "td" [], record.version)],
    [(.opening "td" [], record.install.name)],
    [(.opening "td" [], record.vcs.name)],
    siteTags record.site?,
    brokenTags (.opening "td" []) record.licenses,
    (.opening "td" [], "") ::
      brokenTags (.opening "code" []) (record.hashes.entries.map hashLine) ++
      [(.closing "code", "")],
    [(.opening "td" [], record.uid)] ]

/-- The cells of each row of a bucket's table.  The first row has headings only. -/
def tableCells (bucket : Bucket) : List (List (List (Tag × String))) :=
  [] :: bucket.records.map cells

/-- The cells of each row of the report.  There is no table for a host without packages. -/
def reportCells (document : Document) : List (List (List (Tag × String))) :=
  tableCells document.packages ++
    if document.hostPackages.isEmpty then [] else tableCells document.hostPackages

/-- The cells of each row of the tables that are read. -/
def rows (tags : List (Tag × String)) : List (List (List (Tag × String))) :=
  (spans "tr" none tags).map (spans "td" none)

/-! ## Texts with line breaks -/

theorem areAllNamed_brokenLines (texts : List String) :
    Inline.areAllNamed (brokenLines texts) := by
  induction texts using brokenLines.induct with
  | case1 => rfl
  | case2 text => rfl
  | case3 text next rest ih => exact ih

theorem tags_brokenLines (texts : List String) :
    (brokenLines texts).flatMap Inline.tags =
      List.replicate (texts.length - 1) (.alone "br" []) := by
  induction texts using brokenLines.induct with
  | case1 => rfl
  | case2 text => rfl
  | case3 text next rest ih =>
    simp only [brokenLines, List.flatMap_cons, Inline.tags, ih]
    rfl

theorem scanAll_brokenLines (tags : List (Tag × String)) (tag : Tag) (texts : List String) :
    ((Inline.scanAll ⟨"", tags⟩ (brokenLines texts)).tag tag).tags =
      brokenTags tag texts ++ tags := by
  induction texts using brokenLines.induct generalizing tag with
  | case1 => rfl
  | case2 text => simp [brokenLines, Inline.scanAll, Inline.scan, Passage.text, brokenTags]
  | case3 text next rest ih =>
    -- The rest is read as texts after the line break.
    have hrest := ih (.alone "br" [])
    rw [brokenLines, Inline.scanAll, Inline.scanAll, Inline.scan, Inline.scan, Passage.tags_tag,
      Passage.tags_text, hrest]
    simp [Passage.text, Passage.tag, brokenTags]

theorem ne_closing_of_mem_brokenLines {texts : List String} {tag : Tag}
    (h : tag ∈ (brokenLines texts).flatMap Inline.tags) (name : String) : tag ≠ .closing name := by
  rw [tags_brokenLines] at h
  rw [List.eq_of_mem_replicate h]
  exact Tag.noConfusion

/-! ## Cells -/

/-- In front of other tags the node is read as this cell, and it does not end the row.
    The second is what keeps a row together when rows are read. -/
structure IsCell (node : Node) (held : List (Tag × String)) : Prop where
  spans_scan (depth : Nat) (passage : Passage) :
    spans "td" none (node.scan depth passage).tags = held :: spans "td" none passage.tags
  ne_closing : ∀ tag ∈ node.tags, tag ≠ .closing "tr"

theorem isCell_cell (contents : List Inline)
    (h : ∀ tag ∈ contents.flatMap Inline.tags, tag ≠ .closing "td" ∧ tag ≠ .closing "tr")
    {held : List (Tag × String)}
    (hheld : ((Inline.scanAll ⟨"", []⟩ contents).tag (.opening "td" [])).tags = held) :
    IsCell (cell contents) held where
  spans_scan := by
    rw [← hheld]
    exact spans_line (fun tag htag => (h tag htag).1) []
  ne_closing :=
    Inline.forall_tags_element Tag.noConfusion (by decide) fun tag htag => (h tag htag).2

theorem isCell_text (content : String) :
    IsCell (.text "td" content) [(.opening "td" [], content)] := by
  apply isCell_cell [.text content]
  · simp [Inline.tags]
  · simp [Inline.scanAll, Inline.scan, Passage.text]

theorem isCell_siteCell (site? : Option String) : IsCell (siteCell site?) (siteTags site?) := by
  rw [siteCell, siteTags]
  cases nonEmpty? site? with
  | some site =>
    apply isCell_cell [.element "a" [("href", site)] [.text site]]
    · simp [Inline.tags]
    · simp [Inline.scanAll, Inline.scan, Passage.text, Passage.tag]
  | none =>
    apply isCell_cell []
    · simp
    · rfl

theorem isCell_brokenLines (texts : List String) :
    IsCell (cell (brokenLines texts)) (brokenTags (.opening "td" []) texts) := by
  apply isCell_cell
  · intro tag htag
    exact ⟨ne_closing_of_mem_brokenLines htag "td", ne_closing_of_mem_brokenLines htag "tr"⟩
  · rw [scanAll_brokenLines, List.append_nil]

theorem isCell_code (texts : List String) : IsCell (cell [.element "code" [] (brokenLines texts)])
    ((.opening "td" [], "") ::
      brokenTags (.opening "code" []) texts ++ [(.closing "code", "")]) := by
  apply isCell_cell
  · rw [List.flatMap_singleton]
    refine Inline.forall_tags_element (by decide) (by decide) ?_
    intro tag htag
    exact ⟨ne_closing_of_mem_brokenLines htag "td", ne_closing_of_mem_brokenLines htag "tr"⟩
  · rw [List.cons_append, ← scanAll_brokenLines]
    rfl

/-! ## Rows -/

theorem spans_cells {nodes : List Node} {helds : List (List (Tag × String))}
    (h : List.Forall₂ IsCell nodes helds) (depth : Nat) (passage : Passage) :
    spans "td" none (Node.scanAll depth passage nodes).tags =
      helds ++ spans "td" none passage.tags := by
  induction h with
  | nil => rfl
  | cons hcell _ ih => rw [Node.scanAll, hcell.spans_scan, ih, List.cons_append]

theorem ne_closing_of_cells {nodes : List Node} {helds : List (List (Tag × String))}
    (h : List.Forall₂ IsCell nodes helds) :
    ∀ tag ∈ nodes.flatMap Node.tags, tag ≠ .closing "tr" := by
  induction h with
  | nil => simp
  | cons hcell _ ih => simpa [or_imp, forall_and] using ⟨hcell.ne_closing, by simpa using ih⟩

theorem rows_tag {tag : Tag} (h : tag.opens "tr" = false) (passage : Passage) :
    rows (passage.tag tag).tags = rows passage.tags := by
  rw [rows, Passage.tags_tag, spans, h, if_neg Bool.false_ne_true, rows]

/-- A row is read off a row, whatever its cells hold. -/
theorem rows_tr {nodes : List Node} (h : ∀ tag ∈ nodes.flatMap Node.tags, tag ≠ .closing "tr")
    (depth : Nat) (passage : Passage) :
    rows ((Node.block "tr" [] nodes).scan depth passage).tags =
      spans "td" none (Node.scanAll (depth + 1) ⟨indent depth, []⟩ nodes).tags ::
        rows passage.tags := by
  have hopens : Tag.opens "td" (.opening "tr" []) = false := by decide
  rw [rows, spans_block h, List.map_cons, Passage.tags_tag, spans, hopens,
    if_neg Bool.false_ne_true, Passage.tags_text, rows]

/-- **Rows.** The cells that are read off a package's row hold the values of the package. -/
theorem rows_row (record : Record) (depth : Nat) (passage : Passage) :
    rows ((row record).scan depth passage).tags = cells record :: rows passage.tags := by
  have hlines : record.hashes.entries.map (·.render) = record.hashes.entries.map hashLine :=
    List.map_congr_left fun entry _ => render_eq_hashLine entry
  have hcells : List.Forall₂ IsCell
      [ .text "td" record.name,
        .text "td" record.version,
        .text "td" record.install.name,
        .text "td" record.vcs.name,
        siteCell record.site?,
        cell (brokenLines record.licenses),
        cell [.element "code" [] (brokenLines (record.hashes.entries.map hashLine))],
        .text "td" record.uid ] (cells record) :=
    .cons (isCell_text _) (.cons (isCell_text _) (.cons (isCell_text _) (.cons (isCell_text _)
      (.cons (isCell_siteCell _) (.cons (isCell_brokenLines _) (.cons (isCell_code _)
        (.cons (isCell_text _) .nil)))))))
  have hrow := rows_tr (ne_closing_of_cells hcells) depth passage
  -- After the last cell stands the indent of the row's end, which is in no cell.
  rw [spans_cells hcells] at hrow
  rw [row, hlines, hrow]
  simp [spans]

theorem rows_records (records : List Record) (depth : Nat) (passage : Passage) :
    rows (Node.scanAll depth passage (records.map row)).tags =
      records.map cells ++ rows passage.tags := by
  induction records with
  | nil => rfl
  | cons record records ih =>
    rw [List.map_cons, Node.scanAll, rows_row, ih, List.map_cons, List.cons_append]

/-- The row of the headings has no cells. -/
theorem rows_headings (depth : Nat) (passage : Passage) :
    rows ((Node.block "tr" [] (columns.map fun column => .text "th" column)).scan depth
      passage).tags = [] :: rows passage.tags := by
  have htags : ∀ tag ∈ (columns.map fun column => Node.text "th" column).flatMap Node.tags,
      tag ≠ .closing "tr" ∧ tag.opens "td" = false := by
    simp only [List.flatMap_map, Node.tags_text, List.mem_flatMap, List.mem_cons,
      List.not_mem_nil, or_false]
    rintro tag ⟨column, -, rfl | rfl⟩ <;> decide
  rw [rows_tr (fun tag htag => (htags tag htag).1),
    spans_scanAll_of_not_opens fun tag htag => (htags tag htag).2]
  rfl

/-- What is read off the contents of a block is read off the block. -/
theorem rows_block {name : String} (hname : name ≠ "tr") {contents : List Node} {depth : Nat}
    {items : List (List (List (Tag × String)))}
    (h : ∀ passage, rows (Node.scanAll (depth + 1) passage contents).tags =
      items ++ rows passage.tags) (attributes : List Attribute) (passage : Passage) :
    rows ((Node.block name attributes contents).scan depth passage).tags =
      items ++ rows passage.tags := by
  have hopening : Tag.opens "tr" (.opening name attributes) = false := beq_false_of_ne hname
  have hclosing : Tag.opens "tr" (.closing name) = false := rfl
  rw [Node.scan, Passage.tags_text, rows_tag hopening, Passage.tags_text, h, Passage.tags_text,
    rows_tag hclosing, Passage.tags_text]

theorem rows_of_not_opens {node : Node} (h : ∀ tag ∈ node.tags, tag.opens "tr" = false)
    (depth : Nat) (passage : Passage) :
    rows (node.scan depth passage).tags = rows passage.tags := by
  rw [rows, spans_scan_of_not_opens h, rows]

theorem rows_table (title : String) (bucket : Bucket) (depth : Nat) (passage : Passage) :
    rows (Node.scanAll depth passage (table title bucket)).tags =
      tableCells bucket ++ rows passage.tags := by
  have hcontents : ∀ passage, rows (Node.scanAll (depth + 1) passage
      (.block "tr" [] (columns.map fun column => .text "th" column) ::
        bucket.records.map row)).tags = tableCells bucket ++ rows passage.tags := by
    intro passage
    rw [Node.scanAll, rows_headings, rows_records]
    rfl
  rw [table, Node.scanAll, rows_of_not_opens (by simp [Tag.opens]), Node.scanAll,
    rows_block (by decide) hcontents]
  rfl

theorem rows_page (document : Document) (passage : Passage) :
    rows ((page document).scan 0 passage).tags = reportCells document ++ rows passage.tags := by
  have hhost : ∀ passage, rows (Node.scanAll 2 passage (if document.hostPackages.isEmpty then []
      else table "Host packages" document.hostPackages)).tags =
      (if document.hostPackages.isEmpty then [] else tableCells document.hostPackages) ++
        rows passage.tags := by
    intro passage
    split
    · rfl
    · exact rows_table _ _ _ _
  apply rows_block (by decide)
  intro passage
  rw [Node.scanAll, Node.scanAll, rows_of_not_opens (by simp [Tag.opens, Node.tags, Inline.tags])]
  apply rows_block (by decide)
  intro passage
  rw [Node.scanAll_append, Node.scanAll, Node.scanAll,
    rows_of_not_opens (by simp [Tag.opens]), rows_of_not_opens (by simp [Tag.opens, item]),
    rows_table, hhost, reportCells, List.append_assoc]

/-! ## Tags -/

/-- The tags of a cell around those in it. -/
def cellTags (inner : List Tag) : List Tag :=
  .opening "td" [] :: inner ++ [.closing "td"]

/-- The line breaks between that many texts. -/
def breaks (texts : Nat) : List Tag := List.replicate (texts - 1) (.alone "br" [])

/-- The tags of the row of a package of this shape, with the addresses of links erased. -/
def rowTags (shape : Record.Shape) : List Tag :=
  .opening "tr" [] ::
    (cellTags [] ++ cellTags [] ++ cellTags [] ++ cellTags [] ++
      cellTags (if shape.hasSite then [.opening "a" [("href", "")], .closing "a"] else []) ++
      cellTags (breaks shape.licenses) ++
      cellTags (.opening "code" [] :: breaks shape.hashes ++ [.closing "code"]) ++
      cellTags []) ++
    [.closing "tr"]

@[simp] theorem withoutHref_bare (name : String) :
    (Tag.opening name []).withoutHref = .opening name [] := rfl

@[simp] theorem withoutHref_closing (name : String) :
    (Tag.closing name).withoutHref = .closing name := rfl

theorem map_withoutHref_cell (contents : List Inline) :
    (cell contents).tags.map Tag.withoutHref =
      cellTags ((contents.flatMap Inline.tags).map Tag.withoutHref) := by
  simp [cell, Node.tags, Inline.tags, cellTags]

theorem map_withoutHref_brokenLines (texts : List String) :
    ((brokenLines texts).flatMap Inline.tags).map Tag.withoutHref = breaks texts.length := by
  rw [tags_brokenLines, List.map_replicate]
  rfl

theorem map_withoutHref_siteCell (site? : Option String) :
    (siteCell site?).tags.map Tag.withoutHref = cellTags
      (if (nonEmpty? site?).isSome then [.opening "a" [("href", "")], .closing "a"] else []) := by
  rw [siteCell]
  cases nonEmpty? site? <;>
    simp [map_withoutHref_cell, Inline.tags, Tag.withoutHref, Tag.withoutHref.erase]

/-- **Markup of a row.** Except for the addresses of links, the tags of a row depend on
    the shape of its package alone. -/
theorem map_withoutHref_row (record : Record) :
    (row record).tags.map Tag.withoutHref = rowTags record.shape := by
  have htext : ∀ content, (Node.text "td" content).tags.map Tag.withoutHref = cellTags [] := by
    intro content
    rw [Node.tags_text]
    rfl
  have hlicenses := map_withoutHref_brokenLines record.licenses
  have hhashes := map_withoutHref_brokenLines (record.hashes.entries.map (·.render))
  rw [List.length_map] at hhashes
  have hcode : (cell [.element "code" []
      (brokenLines (record.hashes.entries.map (·.render)))]).tags.map Tag.withoutHref =
      cellTags (.opening "code" [] :: breaks record.shape.hashes ++ [.closing "code"]) := by
    simp [map_withoutHref_cell, Inline.tags, hhashes, Record.shape]
  simp only [row, Node.tags_block, List.flatMap_cons, List.flatMap_nil, List.map_cons,
    List.map_append, htext, map_withoutHref_siteCell, hcode, map_withoutHref_cell, hlicenses]
  simp only [rowTags, List.append_assoc, withoutHref_bare, withoutHref_closing, List.map_nil,
    List.append_nil]
  rfl

theorem map_withoutHref_rows (records : List Record) :
    ((records.map row).flatMap Node.tags).map Tag.withoutHref =
      (records.map (·.shape)).flatMap rowTags := by
  simp [List.map_flatMap, List.flatMap_map, map_withoutHref_row]

theorem map_withoutHref_table (title : String) {first second : Bucket}
    (h : first.records.map (·.shape) = second.records.map (·.shape)) :
    ((table title first).flatMap Node.tags).map Tag.withoutHref =
      ((table title second).flatMap Node.tags).map Tag.withoutHref := by
  simp only [table, List.flatMap_cons, List.flatMap_nil, Node.tags_text, Node.tags_block,
    List.map_append, List.map_cons, map_withoutHref_rows, h]

theorem map_withoutHref_page {first second : Document} (h : first.SameShape second) :
    (page first).tags.map Tag.withoutHref = (page second).tags.map Tag.withoutHref := by
  have hempty : first.hostPackages.isEmpty = second.hostPackages.isEmpty := by
    have hlength := congrArg List.isEmpty h.hostPackages
    rwa [List.isEmpty_map, List.isEmpty_map] at hlength
  -- The shapes tell whether there is a table for the host at all.
  have hhost : ((if first.hostPackages.isEmpty then [] else
      table "Host packages" first.hostPackages).flatMap Node.tags).map Tag.withoutHref =
      ((if second.hostPackages.isEmpty then [] else
        table "Host packages" second.hostPackages).flatMap Node.tags).map Tag.withoutHref := by
    rw [hempty]
    split
    · rfl
    · exact map_withoutHref_table _ h.hostPackages
  have hpackages := map_withoutHref_table "Packages" h.packages
  simp only [page, item, Node.tags_block, Node.tags_text, List.flatMap_cons, List.flatMap_append,
    List.map_append, List.map_cons, hpackages, hhost]

/-! ## The report -/

theorem isNamed_cell {contents : List Inline} (h : Inline.areAllNamed contents) :
    (cell contents).isNamed := by
  rw [cell, Node.isNamed, Inline.isNamed, h]
  rfl

theorem isNamed_siteCell (site? : Option String) : (siteCell site?).isNamed := by
  unfold siteCell
  split <;> rfl

theorem isNamed_row (record : Record) : (row record).isNamed := by
  have hcode : (cell [.element "code" []
      (brokenLines (record.hashes.entries.map (·.render)))]).isNamed := by
    apply isNamed_cell
    rw [Inline.areAllNamed, Inline.isNamed, areAllNamed_brokenLines]
    rfl
  simp only [row, Node.isNamed_block, List.all_cons, isNamed_siteCell,
    isNamed_cell (areAllNamed_brokenLines record.licenses), hcode]
  rfl

theorem isNamed_table (title : String) (bucket : Bucket) :
    (table title bucket).all Node.isNamed := by
  have hrows : (bucket.records.map row).all Node.isNamed := by
    simp [isNamed_row]
  simp only [table, List.all_cons, Node.isNamed_block, hrows]
  rfl

theorem isNamed_page (document : Document) : (page document).isNamed := by
  have hhost : (if document.hostPackages.isEmpty then [] else
      table "Host packages" document.hostPackages).all Node.isNamed := by
    split
    · rfl
    · exact isNamed_table _ _
  simp only [page, Node.isNamed_block, List.all_cons, List.all_append, isNamed_table, hhost]
  rfl

/-- What is read off the report. -/
def passage (document : Document) : Passage :=
  let page := (page document).scan 0 ⟨"", []⟩
  ((page.text "\n").tag (.declaration "!DOCTYPE html")).text (indent 0)

theorem scan?_render (document : Document) :
    scan? (render document) = some (passage document) := by
  have hend : scan? "" = some ⟨"", []⟩ := rfl
  have hpage := scan?_node_append 0 hend (isNamed_page document)
  have hdeclaration : tag? "!DOCTYPE html".toList = some (.declaration "!DOCTYPE html") := rfl
  have hinside : ∀ c ∈ "!DOCTYPE html".toList, c ≠ '<' ∧ c ≠ '>' := by simp
  have hscan := scan?_line_append 0
    (scan?_tag_append (scan?_lineBreak_append hpage) hdeclaration hinside)
  rw [String.append_empty] at hscan
  exact hscan

theorem map_withoutHref_passage (document : Document) :
    (passage document).tags.map (·.1.withoutHref) =
      .declaration "!DOCTYPE html" :: (page document).tags.map Tag.withoutHref := by
  have htags := (page document).map_fst_scan 0 ⟨"", []⟩
  rw [List.map_nil, List.append_nil] at htags
  rw [← htags, List.map_map]
  rfl

theorem rows_passage (document : Document) :
    rows (passage document).tags = reportCells document := by
  rw [passage, Passage.tags_text, rows_tag rfl, Passage.tags_text, rows_page]
  exact List.append_nil _

/-- **HTML report.** The report is read as tags with texts between them.  In the tables,
    row by row and cell by cell, stand the values of the packages, as text and as the
    addresses of links.  The tags, with these addresses erased, are those of the report
    on any document of the same shape: no value of a document is taken for markup. -/
theorem render_inert (document : Document) : ∃ passage, scan? (render document) = some passage ∧
    rows passage.tags = reportCells document ∧
    ∀ other : Document, document.SameShape other → ∃ passage',
      scan? (render other) = some passage' ∧
        passage'.tags.map (·.1.withoutHref) = passage.tags.map (·.1.withoutHref) := by
  refine ⟨passage document, scan?_render document, rows_passage document, ?_⟩
  intro other h
  refine ⟨passage other, scan?_render other, ?_⟩
  rw [map_withoutHref_passage, map_withoutHref_passage, map_withoutHref_page h]

/-- Texts with tags and quotes in them do as well as any. -/
theorem render_inert_tags :
    let report (name license site : String) : Document :=
      let hashes : Manifest := ⟨[.listing ⟨"sha256", none⟩ "0123abcd" name]⟩
      ⟨⟨"id", "1.0.0", "project", "now"⟩,
        .ofRecords [⟨name, "1", some site, .target, .none, [license, license], hashes, "uid"⟩],
        .empty⟩
    let plain := report "zlib" "MIT" "https://zlib.net"
    let tagged := report "</td><script>" "<br/></tr>" "\" onclick=\"alert(1)"
    plain.SameShape tagged ∧ ∃ passage, scan? (render plain) = some passage ∧
      rows passage.tags = reportCells plain ∧ ∃ passage',
        scan? (render tagged) = some passage' ∧
          passage'.tags.map (·.1.withoutHref) = passage.tags.map (·.1.withoutHref) := by
  intro report plain tagged
  have hshape : plain.SameShape tagged := ⟨rfl, rfl⟩
  obtain ⟨passage, hscan, hrows, hother⟩ := render_inert plain
  exact ⟨hshape, passage, hscan, hrows, hother tagged hshape⟩

end Report.Html

end BillOfMaterials
