import Mathlib.Data.Finset.Card
import BillOfMaterials.Proofs.Document.Bucket

/-! # Buckets as maps in order of insertion

    A bucket is a row of records, a map from names to records, and a count.  One
    insertion changes the three views together, and so does a run of them.

    * `get?_insert` and `getElem?_insert` say what one insertion does to the record of a
      name and to the record at a position.
    * `get?_ofRecords`: after a run a name has the record that was inserted with it last.
    * `size_ofRecords`: the records are counted by their names.
    * `ofRecords_orderedMap` puts all of it together. -/

namespace BillOfMaterials.Bucket

/-! ## Views of one bucket -/

theorem mem_records_of_get? {bucket : Bucket} {name : String} {record : Record}
    (h : bucket.get? name = some record) : record ∈ bucket.records ∧ record.name = name := by
  rw [get?] at h
  have hname := List.find?_some h
  exact ⟨List.mem_of_find?_eq_some h, of_decide_eq_true hname⟩

/-- Look-up finds the one record of a name. -/
theorem get?_eq_some_iff {bucket : Bucket} {name : String} {record : Record} :
    bucket.get? name = some record ↔ record ∈ bucket.records ∧ record.name = name := by
  constructor
  · exact mem_records_of_get?
  · rintro ⟨hmem, rfl⟩
    cases hfound : bucket.get? record.name with
    | none =>
      have hnone := List.find?_eq_none.1 hfound record hmem
      exact absurd (decide_eq_true rfl) hnone
    | some other =>
      obtain ⟨hother, hname⟩ := mem_records_of_get? hfound
      rw [List.inj_on_of_nodup_map bucket.distinct hother hmem hname]

theorem get?_eq_none_iff {bucket : Bucket} {name : String} :
    bucket.get? name = none ↔ name ∉ bucket.names := by
  simp [get?, names, List.find?_eq_none]

theorem contains_eq_false_iff {bucket : Bucket} {name : String} :
    bucket.contains name = false ↔ name ∉ bucket.names := by
  rw [← get?_eq_none_iff, contains, Option.isSome_eq_false_iff, Option.isNone_iff_eq_none]

theorem size_eq_card_names (bucket : Bucket) : bucket.size = bucket.names.toFinset.card := by
  have hnames : bucket.names.Nodup := bucket.distinct
  rw [List.toFinset_card_of_nodup hnames, names, List.length_map, size]

/-! ## One insertion -/

/-- The name that is inserted has the new record, and each other name what it had. -/
theorem get?_insert (bucket : Bucket) (record : Record) (name : String) :
    (bucket.insert record).get? name =
      if record.name = name then some record else bucket.get? name := by
  by_cases hname : record.name = name
  · rw [if_pos hname]
    exact get?_eq_some_iff.2 ⟨mem_insert.2 (.inl rfl), hname⟩
  · rw [if_neg hname]
    ext other
    rw [get?_eq_some_iff, get?_eq_some_iff, mem_insert]
    constructor
    · rintro ⟨rfl | ⟨hother, -⟩, heq⟩
      · exact absurd heq hname
      · exact ⟨hother, heq⟩
    · rintro ⟨hother, rfl⟩
      exact ⟨.inr ⟨hother, Ne.symm hname⟩, rfl⟩

/-- A record stays at its position, unless it has the name that is inserted: then the
    new record stands there. -/
theorem getElem?_insert {bucket : Bucket} {record other : Record} {position : Nat}
    (h : bucket.records[position]? = some other) :
    (bucket.insert record).records[position]? =
      some (if other.name = record.name then record else other) := by
  by_cases hmem : record.name ∈ bucket.names
  · rw [records_insert_of_mem hmem, List.getElem?_map, h, Option.map_some]
  · have hne := name_ne_of_notMem hmem (List.mem_of_getElem? h)
    obtain ⟨hposition, -⟩ := List.getElem?_eq_some_iff.1 h
    rw [records_insert_of_notMem hmem, List.getElem?_append_left hposition, h, if_neg hne]

/-! ## Runs of insertions -/

/-- **Look-up.** A name has the last of the records that were inserted with it. -/
theorem get?_ofRecords (records : List Record) (name : String) :
    (ofRecords records).get? name = (records.filter (·.name = name)).getLast? := by
  induction records using List.reverseRecOn with
  | nil => rfl
  | append_singleton records latest ih =>
    rw [ofRecords_concat, get?_insert, ih, List.filter_append, List.getLast?_append]
    by_cases hname : latest.name = name
    · simp [hname]
    · simp [hname]

theorem mem_names_ofRecords {records : List Record} {name : String} :
    name ∈ (ofRecords records).names ↔ name ∈ records.map (·.name) := by
  rw [names_ofRecords, List.mem_eraseDups]

/-- **Count.** There are as many records as distinct names were inserted. -/
theorem size_ofRecords (records : List Record) :
    (ofRecords records).size = (records.map (·.name)).toFinset.card := by
  have hnames : (ofRecords records).names.toFinset = (records.map (·.name)).toFinset := by
    ext name
    rw [List.mem_toFinset, List.mem_toFinset, mem_names_ofRecords]
  rw [size_eq_card_names, hnames]

/-- **Map in order of insertion.** After any run of insertions no two records share a
    name, the names stand in the order in which they came first, each has the record that
    was inserted with it last, and they are counted.  A name that was not inserted has no
    record.  A further insertion changes the record of no other name and moves no record:
    what has its name is replaced where it stands. -/
theorem ofRecords_orderedMap (records : List Record) :
    let inserted := records.map (·.name)
    let bucket := ofRecords records
    bucket.records.Pairwise (·.name ≠ ·.name) ∧
    bucket.names = inserted.eraseDups ∧
    (∀ name, bucket.get? name = (records.filter (·.name = name)).getLast?) ∧
    (∀ name, bucket.get? name = none ↔ name ∉ inserted) ∧
    (∀ name, bucket.contains name = false ↔ name ∉ inserted) ∧
    bucket.size = inserted.toFinset.card ∧
    ∀ record,
      (∀ name, name ≠ record.name → (bucket.insert record).get? name = bucket.get? name) ∧
      ∀ (position : Nat) (other : Record), bucket.records[position]? = some other →
        (bucket.insert record).records[position]? =
          some (if other.name = record.name then record else other) := by
  intro inserted bucket
  have hdistinct : bucket.records.Pairwise (·.name ≠ ·.name) := List.pairwise_map.1 bucket.distinct
  refine ⟨hdistinct, names_ofRecords records, get?_ofRecords records, ?_, ?_,
    size_ofRecords records, ?_⟩
  · intro name
    rw [get?_eq_none_iff, mem_names_ofRecords]
  · intro name
    rw [contains_eq_false_iff, mem_names_ofRecords]
  · intro record
    constructor
    · intro name hname
      rw [get?_insert, if_neg hname.symm]
    · intro position other hother
      exact getElem?_insert hother

/-- A name that comes again keeps its place, and so does the other name. -/
theorem ofRecords_orderedMap_repeated :
    let record (name version : String) : Record :=
      { name, version, site? := none, install := .target, vcs := .git, licenses := [],
        hashes := .empty, uid := "" }
    let bucket := ofRecords [record "zlib" "1", record "curl" "1", record "zlib" "2"]
    let next := bucket.insert (record "curl" "3")
    bucket.names = ["zlib", "curl"] ∧ bucket.size = 2 ∧
      bucket.get? "zlib" = some (record "zlib" "2") ∧ bucket.contains "group" = false ∧
      "zlib" ≠ "curl" ∧ next.get? "zlib" = some (record "zlib" "2") ∧
      bucket.records[1]? = some (record "curl" "1") ∧
      next.records[1]? = some (record "curl" "3") := by
  intro record bucket next
  obtain ⟨-, hnames, hget, -, hcontains, hsize, hinsert⟩ :=
    ofRecords_orderedMap [record "zlib" "1", record "curl" "1", record "zlib" "2"]
  obtain ⟨hothers, hpositions⟩ := hinsert (record "curl" "3")
  have hne : "zlib" ≠ "curl" := by decide
  have hzlib : bucket.get? "zlib" = some (record "zlib" "2") := (hget "zlib").trans rfl
  have hcurl : bucket.records[1]? = some (record "curl" "1") := rfl
  refine ⟨hnames.trans rfl, hsize.trans (by decide), hzlib, (hcontains "group").2 (by decide), hne,
    (hothers "zlib" hne).trans hzlib, hcurl, ?_⟩
  exact (hpositions 1 (record "curl" "1") hcurl).trans rfl

end BillOfMaterials.Bucket
