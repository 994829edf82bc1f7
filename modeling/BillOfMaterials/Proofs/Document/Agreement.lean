import Mathlib.Data.List.Forall2
import BillOfMaterials.Document

/-! # Documents that say the same

    A report that gives everything writes every field of a record, of each listed
    hash the algorithm as its text.  Documents agree if they have the same to
    write: in each bucket the same records in the same order.

    * `Manifest.Entry.written` is what is written of a listed hash.
    * `Record.Agrees` and `Document.Agrees` say so field by field.
    * `forall₂_iff_map_eq`: what tells records apart tells rows of records apart. -/

namespace BillOfMaterials

/-- What is written of a listed hash: the algorithm, the digest and the asset.  The
    algorithm is its name, with a colon and the key length after it if there is one. -/
def Manifest.Entry.written : Manifest.Entry → String × String × String
  | ⟨⟨name, none⟩, digest, asset⟩ => (name, digest, asset)
  | ⟨⟨name, some length⟩, digest, asset⟩ => (name ++ ":" ++ length.repr, digest, asset)

/-- The written form of an algorithm says this. -/
theorem Manifest.Entry.written_eq (entry : Manifest.Entry) :
    entry.written = (entry.algorithm.render, entry.digest, entry.asset) := by
  obtain ⟨⟨name, keyLength?⟩, digest, asset⟩ := entry
  cases keyLength? <;> rfl

/-- The records have the same to write.  No site is not an empty site. -/
structure Record.Agrees (first second : Record) : Prop where
  name : first.name = second.name
  version : first.version = second.version
  site : first.site? = second.site?
  install : first.install = second.install
  vcs : first.vcs = second.vcs
  licenses : first.licenses = second.licenses
  hashes : first.hashes.entries.map (·.written) = second.hashes.entries.map (·.written)
  uid : first.uid = second.uid

/-- The documents have the same to write. -/
structure Document.Agrees (first second : Document) : Prop where
  metadata : first.metadata = second.metadata
  packages : List.Forall₂ Record.Agrees first.packages.records second.packages.records
  hostPackages : List.Forall₂ Record.Agrees first.hostPackages.records second.hostPackages.records

theorem Document.Agrees.isEmpty_hostPackages {first second : Document} (h : first.Agrees second) :
    first.hostPackages.isEmpty = second.hostPackages.isEmpty := by
  have hlength := h.hostPackages.length_eq
  rw [Bool.eq_iff_iff, Bucket.isEmpty, Bucket.isEmpty, List.isEmpty_iff, List.isEmpty_iff,
    ← List.length_eq_zero_iff, hlength, List.length_eq_zero_iff]

/-- What tells apart as a relation does tells rows apart as the relation does, one
    by one. -/
theorem forall₂_iff_map_eq {α β : Type} {relation : α → α → Prop} {view : α → β}
    (h : ∀ first second, view first = view second ↔ relation first second) {first second : List α} :
    List.Forall₂ relation first second ↔ first.map view = second.map view := by
  have hrelation : relation = fun a b => view a = view b := by
    funext a b
    exact propext (h a b).symm
  rw [hrelation, ← List.forall₂_eq_eq_eq, List.forall₂_map_left_iff, List.forall₂_map_right_iff]

theorem Install.name_injective : Function.Injective Install.name := by
  intro first second h
  cases first <;> cases second <;> first | rfl | exact absurd h (by decide)

theorem Vcs.name_injective : Function.Injective Vcs.name := by
  intro first second h
  cases first <;> cases second <;> first | rfl | exact absurd h (by decide)

end BillOfMaterials
