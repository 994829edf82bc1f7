import BillOfMaterials.Manifest.Basic
import BillOfMaterials.Package.Basic

/-! # Documents

    The bill of materials: what is reported of each package, in two buckets,
    and the identity of the report.

    * `Record` is what is reported of a package.
    * `Bucket` holds records of distinct names in the order in which the names
      came first.
    * `Document` is a bucket for the target, one for the host, and `Metadata`. -/

namespace BillOfMaterials

/-! ## Records -/

structure Record where
  name : String
  version : String
  site? : Option String
  install : Install
  vcs : Vcs
  /-- License expressions, verbatim. -/
  licenses : List String
  hashes : Manifest
  uid : String
  deriving DecidableEq, Repr

/-! ## Buckets -/

namespace Bucket

/-- Puts a record in the place of the one with its name, else at the end. -/
def insertRecord (record : Record) : List Record → List Record
  | [] => [record]
  | first :: rest =>
    if first.name = record.name then record :: rest else first :: insertRecord record rest

theorem mem_names_insertRecord {record : Record} {records : List Record} {name : String} :
    name ∈ (insertRecord record records).map (·.name) ↔
      name = record.name ∨ name ∈ records.map (·.name) := by
  induction records with
  | nil => simp [insertRecord]
  | cons first rest ih =>
    by_cases same : first.name = record.name
    · simp [insertRecord, same]
    · simp only [insertRecord, if_neg same, List.map_cons, List.mem_cons, ih]
      grind

theorem nodup_insertRecord (record : Record) {records : List Record}
    (distinct : (records.map (·.name)).Nodup) :
    ((insertRecord record records).map (·.name)).Nodup := by
  induction records with
  | nil => simp [insertRecord]
  | cons first rest ih =>
    rw [List.map_cons, List.nodup_cons] at distinct
    by_cases same : first.name = record.name
    · rw [insertRecord, if_pos same, List.map_cons, List.nodup_cons, ← same]
      exact distinct
    · simp only [insertRecord, if_neg same, List.map_cons, List.nodup_cons]
      refine ⟨?_, ih distinct.2⟩
      rw [mem_names_insertRecord]
      rintro (eq | mem)
      · exact same eq
      · exact distinct.1 mem

end Bucket

/-- Records of distinct names, in the order in which the names came first. -/
structure Bucket where
  records : List Record
  distinct : (records.map (·.name)).Nodup
  deriving DecidableEq

namespace Bucket

def empty : Bucket := ⟨[], by simp⟩

instance : Inhabited Bucket := ⟨empty⟩

/-- Inserts a record.  A record of the same name is replaced in its place. -/
def insert (bucket : Bucket) (record : Record) : Bucket :=
  ⟨insertRecord record bucket.records, nodup_insertRecord record bucket.distinct⟩

@[simp] theorem records_empty : empty.records = [] := rfl

@[simp] theorem records_insert (bucket : Bucket) (record : Record) :
    (bucket.insert record).records = insertRecord record bucket.records := rfl

/-- The bucket after inserting records one by one. -/
def ofRecords (records : List Record) : Bucket := records.foldl insert empty

/-- The record of a name. -/
def get? (bucket : Bucket) (name : String) : Option Record :=
  bucket.records.find? (·.name = name)

def contains (bucket : Bucket) (name : String) : Bool := (bucket.get? name).isSome

def names (bucket : Bucket) : List String := bucket.records.map (·.name)

def size (bucket : Bucket) : Nat := bucket.records.length

def isEmpty (bucket : Bucket) : Bool := bucket.records.isEmpty

end Bucket

/-! ## Documents -/

/-- What identifies a report. -/
structure Metadata where
  /-- Unique to one report. -/
  reportId : String
  toolVersion : String
  /-- The same for the same packages. -/
  projectId : String
  /-- When the report was made. -/
  datetime : String
  deriving DecidableEq, Repr

structure Document where
  metadata : Metadata
  /-- Packages of the target. -/
  packages : Bucket
  /-- Packages of the build host. -/
  hostPackages : Bucket
  deriving DecidableEq

namespace Document

/-- The kind of document, which every report names. -/
def type : String := "releng-tool-sbom"

def schemaVersion : String := "0"

/-- The version of the tool that makes the reports. -/
def toolVersion : String := "1.0.0"

/-- Every record, those of the target first. -/
def records (document : Document) : List Record :=
  document.packages.records ++ document.hostPackages.records

end Document

end BillOfMaterials
