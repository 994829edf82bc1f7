import Mathlib.Data.List.Induction
import BillOfMaterials.Document

/-! # Runs of insertions into a bucket

    A bucket is filled by inserting records one by one.  Replacing a record in
    its place keeps the order of names, and a replaced record is gone, so the
    names tell which came first and the records which came last.

    * `records_insert_of_mem` and `records_insert_of_notMem` say what one insertion does:
      a record is replaced in its place, or a new one goes to the end.
    * `names_insert` and `mem_insert` say so of the names and of the records.
    * `names_ofRecords`: after a run the names are those inserted, each once, in
      the order in which they came first.
    * `mem_ofRecords_iff`: of the records of one name the last is held. -/

namespace BillOfMaterials.Bucket

/-! ## One insertion -/

theorem insertRecord_of_mem {record : Record} {records : List Record}
    (distinct : (records.map (·.name)).Nodup) (h : record.name ∈ records.map (·.name)) :
    insertRecord record records =
      records.map fun other => if other.name = record.name then record else other := by
  induction records with
  | nil => cases h
  | cons first rest ih =>
    rw [List.map_cons, List.nodup_cons] at distinct
    by_cases same : first.name = record.name
    · -- No record of the rest has the name of the one that is replaced.
      have hrest : ∀ other ∈ rest, (if other.name = record.name then record else other) = other := by
        intro other hother
        apply if_neg
        intro heq
        exact distinct.1 (List.mem_map.2 ⟨other, hother, heq.trans same.symm⟩)
      rw [insertRecord, if_pos same, List.map_cons, if_pos same, List.map_congr_left hrest,
        List.map_id']
    · have hmem : record.name ∈ rest.map (·.name) :=
        (List.mem_cons.1 h).resolve_left fun heq => same heq.symm
      rw [insertRecord, if_neg same, List.map_cons, if_neg same, ih distinct.2 hmem]

theorem insertRecord_of_notMem {record : Record} {records : List Record}
    (h : record.name ∉ records.map (·.name)) :
    insertRecord record records = records ++ [record] := by
  induction records with
  | nil => rfl
  | cons first rest ih =>
    rw [List.map_cons, List.mem_cons, not_or] at h
    rw [insertRecord, if_neg (Ne.symm h.1), ih h.2, List.cons_append]

section

variable {bucket : Bucket} {record : Record}

/-- A record whose name is there takes the place of the one with its name. -/
theorem records_insert_of_mem (h : record.name ∈ bucket.names) :
    (bucket.insert record).records =
      bucket.records.map fun other => if other.name = record.name then record else other :=
  insertRecord_of_mem bucket.distinct h

/-- A record with a new name goes to the end. -/
theorem records_insert_of_notMem (h : record.name ∉ bucket.names) :
    (bucket.insert record).records = bucket.records ++ [record] :=
  insertRecord_of_notMem h

theorem name_ne_of_notMem (h : record.name ∉ bucket.names) {other : Record}
    (hother : other ∈ bucket.records) : other.name ≠ record.name := by
  intro heq
  exact h (List.mem_map.2 ⟨other, hother, heq⟩)

end

/-- A new name goes to the end; any other insertion keeps the names as they are. -/
theorem names_insert (bucket : Bucket) (record : Record) :
    (bucket.insert record).names =
      if record.name ∈ bucket.names then bucket.names else bucket.names ++ [record.name] := by
  by_cases h : record.name ∈ bucket.names
  · rw [if_pos h, names, names, records_insert_of_mem h, List.map_map]
    apply List.map_congr_left
    intro other _
    by_cases heq : other.name = record.name
    · simp [heq]
    · simp [heq]
  · rw [if_neg h, names, names, records_insert_of_notMem h, List.map_append, List.map_singleton]

/-- An insertion takes the record in and drops what had its name, nothing else. -/
theorem mem_insert {bucket : Bucket} {record other : Record} :
    other ∈ (bucket.insert record).records ↔
      other = record ∨ other ∈ bucket.records ∧ other.name ≠ record.name := by
  by_cases h : record.name ∈ bucket.names
  · rw [records_insert_of_mem h, List.mem_map]
    constructor
    · rintro ⟨held, hheld, rfl⟩
      by_cases heq : held.name = record.name
      · exact .inl (if_pos heq)
      · rw [if_neg heq]
        exact .inr ⟨hheld, heq⟩
    · rintro (rfl | ⟨hother, hne⟩)
      · obtain ⟨held, hheld, heq⟩ := List.mem_map.1 h
        exact ⟨held, hheld, if_pos heq⟩
      · exact ⟨other, hother, if_neg hne⟩
  · rw [records_insert_of_notMem h, List.mem_append, List.mem_singleton, or_comm]
    apply or_congr_right
    constructor
    · intro hother
      exact ⟨hother, name_ne_of_notMem h hother⟩
    · exact And.left

/-! ## Runs of insertions -/

/-- One more name is added to distinct ones only if it is new. -/
theorem eraseDups_concat (names : List String) (name : String) :
    (names ++ [name]).eraseDups =
      if name ∈ names.eraseDups then names.eraseDups else names.eraseDups ++ [name] := by
  rw [List.eraseDups_append, List.removeAll]
  by_cases hmem : name ∈ names
  · have hnone : [name].filter (!names.elem ·) = [] := by simp [hmem]
    rw [if_pos (List.mem_eraseDups.2 hmem), hnone, List.eraseDups_nil, List.append_nil]
  · have hone : [name].filter (!names.elem ·) = [name] := by simp [hmem]
    rw [if_neg (mt List.mem_eraseDups.1 hmem), hone]
    rfl

@[simp] theorem ofRecords_nil : ofRecords [] = empty := rfl

@[simp] theorem ofRecords_concat (records : List Record) (record : Record) :
    ofRecords (records ++ [record]) = (ofRecords records).insert record := by
  simp [ofRecords, List.foldl_append]

/-- **Names.** The names of a bucket are those inserted, each once, in the order
    in which they came first. -/
theorem names_ofRecords (records : List Record) :
    (ofRecords records).names = (records.map (·.name)).eraseDups := by
  induction records using List.reverseRecOn with
  | nil => rfl
  | append_singleton records record ih =>
    rw [ofRecords_concat, names_insert, ih, List.map_append, List.map_singleton,
      eraseDups_concat]

/-- **Records.** A bucket holds, of the records that were inserted with one name,
    the last. -/
theorem mem_ofRecords_iff {records : List Record} {record : Record} :
    record ∈ (ofRecords records).records ↔ ∃ before after,
      records = before ++ record :: after ∧ ∀ later ∈ after, later.name ≠ record.name := by
  induction records using List.reverseRecOn with
  | nil => simp
  | append_singleton records latest ih =>
    rw [ofRecords_concat, mem_insert, ih]
    constructor
    · rintro (rfl | ⟨⟨before, after, rfl, hafter⟩, hne⟩)
      · exact ⟨records, [], rfl, by simp⟩
      · refine ⟨before, after ++ [latest], by simp, ?_⟩
        intro later hlater
        rcases List.mem_append.1 hlater with hlater | hlater
        · exact hafter later hlater
        · rw [List.mem_singleton.1 hlater]
          exact hne.symm
    · rintro ⟨before, after, hsplit, hafter⟩
      -- The run ends with the record itself or with a later one.
      rcases List.eq_nil_or_concat after with rfl | ⟨after, last, rfl⟩
      · have hlast := List.append_inj_right' hsplit rfl
        exact .inl (by simpa using hlast.symm)
      · rw [List.concat_eq_append] at hsplit hafter
        rw [← List.cons_append, ← List.append_assoc] at hsplit
        have hlast : [latest] = [last] := List.append_inj_right' hsplit rfl
        obtain rfl : latest = last := by simpa using hlast
        refine .inr ⟨⟨before, after, List.append_inj_left' hsplit rfl, ?_⟩, ?_⟩
        · intro later hlater
          exact hafter later (by simp [hlater])
        · exact (hafter latest (by simp)).symm

end BillOfMaterials.Bucket
