import BillOfMaterials.Proofs.Csv.Reading
import BillOfMaterials.Report.Csv

/-! # The CSV report can be read

    * `spellsField_field`: a field is quoted where it has to be.
    * `spellsRecord_row`, `spellsRecords_render`: rows and the report are spelled by the
      grammar, whatever their texts are.
    * `render_records`: the records that are read are the packages of the document. -/

namespace BillOfMaterials.Report.Csv

open BillOfMaterials.Csv

theorem isSpecial_eq_false_iff {c : Char} :
    isSpecial c = false ↔ c ≠ ',' ∧ c ≠ '"' ∧ c ≠ '\r' ∧ c ≠ '\n' := by
  simp [isSpecial, and_assoc]

theorem spellsField_field (value : String) : SpellsField (field value).toList value := by
  unfold field
  split
  · have hlist : ("\"" ++ String.ofList (value.toList.flatMap doubleQuote) ++ "\"").toList =
        '"' :: (value.toList.flatMap doubleQuote ++ ['"']) := by simp
    rw [hlist]
    exact .quoted value
  · next hplain =>
    apply SpellsField.bare
    intro c hc
    rw [Bool.not_eq_true, List.any_eq_false] at hplain
    exact isSpecial_eq_false_iff.1 (Bool.eq_false_iff.2 (hplain c hc))

theorem spellsRecord_row {values : List String} (h : values ≠ []) :
    SpellsRecord (row values).toList values := by
  induction values with
  | nil => exact absurd rfl h
  | cons value rest ih =>
    cases rest with
    | nil =>
      have hlist : (row [value]).toList = (field value).toList ++ ['\r', '\n'] := by simp [row]
      rw [hlist]
      exact .last (spellsField_field value)
    | cons next rest =>
      have hlist : (row (value :: next :: rest)).toList =
          (field value).toList ++ ',' :: (row (next :: rest)).toList := by
        simp [row, String.intercalate_cons_cons]
      rw [hlist]
      exact .cons (spellsField_field value) (ih (List.cons_ne_nil next rest))

theorem spellsRecords_rows {rows : List (List String)} (h : ∀ values ∈ rows, values ≠ []) :
    SpellsRecords (rows.flatMap fun values => (row values).toList) rows := by
  induction rows with
  | nil => exact .nil
  | cons values rows ih =>
    rw [List.flatMap_cons]
    exact .cons (spellsRecord_row (h values List.mem_cons_self))
      (ih fun other hother => h other (List.mem_cons_of_mem values hother))

theorem spellsRecords_render (document : Document) :
    SpellsRecords (render document).toList (header :: document.records.map fields) := by
  have hlist : (render document).toList =
      (header :: document.records.map fields).flatMap fun values => (row values).toList := by
    simp [render, List.flatMap_map]
  rw [hlist]
  apply spellsRecords_rows
  simp [header, fields]

/-- **CSV report.** The report is a text of RFC 4180.  Reading it gives the names of the
    fields and then a record of seven fields for each package, those of the target first,
    whatever characters the fields hold. -/
theorem render_records (document : Document) :
    SpellsRecords (render document).toList (header :: document.records.map fields) ∧
      read? (render document) = some (
        ["name", "version", "install-type", "vcs-type", "site", "licenses", "uid"] ::
          (document.packages.records ++ document.hostPackages.records).map fun record =>
            [ record.name, record.version, record.install.name, record.vcs.name,
              record.site?.getD "", String.intercalate "; " record.licenses, record.uid ]) :=
  ⟨spellsRecords_render document, read?_of_spellsRecords (spellsRecords_render document)⟩

end BillOfMaterials.Report.Csv
