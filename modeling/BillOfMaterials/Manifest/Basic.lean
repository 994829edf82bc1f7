import BillOfMaterials.Path
import BillOfMaterials.Text.Case

/-! # Hash manifests

    A manifest lists digests of files.  Several entries may name the same
    algorithm and the same file; each of them is an accepted digest.

    * `Manifest.Algorithm` is a name with an optional key length.
    * `Manifest.Entry` is an algorithm, a digest and the asset it belongs to.
    * `Manifest.FormatError` and `Manifest.LoadError` say why there is none. -/

namespace BillOfMaterials

/-- A hash algorithm as a manifest names it. -/
structure Manifest.Algorithm where
  name : String
  /-- The wanted output in bytes, for algorithms that leave it open. -/
  keyLength? : Option Nat
  deriving DecidableEq, Repr

/-- The written form: the name, and after a colon the key length if there is one. -/
def Manifest.Algorithm.render (algorithm : Algorithm) : String :=
  match algorithm.keyLength? with
  | some length => algorithm.name ++ ":" ++ length.repr
  | none => algorithm.name

structure Manifest.Entry where
  algorithm : Algorithm
  digest : String
  asset : String
  deriving DecidableEq, Repr

/-- The entry that lists a digest, in small letters, for an asset. -/
def Manifest.Entry.listing (algorithm : Algorithm) (digest asset : String) : Entry where
  algorithm := algorithm
  digest := Text.lowered digest
  asset := asset

/-- The written form of an entry. -/
def Manifest.Entry.render (entry : Entry) : String :=
  entry.algorithm.render ++ " " ++ entry.digest ++ " " ++ entry.asset

structure Manifest where
  entries : List Manifest.Entry
  deriving DecidableEq, Repr, Inhabited

namespace Manifest

def empty : Manifest := ⟨[]⟩

/-- The entries that name an asset, in order. -/
def entriesFor (manifest : Manifest) (asset : String) : List Entry :=
  manifest.entries.filter (·.asset = asset)

/-- A fault in a manifest's text, with the number of the faulty entry among the
    lines that hold any. -/
inductive FormatError where
  | tooManyValues (entry : Nat)
  | tooFewValues (entry : Nat)
  | invalidKeyLength (entry : Nat) (value : String)
  deriving DecidableEq, Repr

def FormatError.message : FormatError → String
  | .tooManyValues entry => "too many values for entry " ++ entry.repr
  | .tooFewValues entry => "too few values for entry " ++ entry.repr
  | .invalidKeyLength entry value =>
    "invalid key length '" ++ value ++ "' for entry " ++ entry.repr

/-- Why a manifest could not be loaded. -/
inductive LoadError where
  | unreadable (path : Path) (details : String)
  | malformed (path : Path) (fault : FormatError)
  deriving DecidableEq, Repr

def LoadError.message : LoadError → String
  | .unreadable path details => "unable to read hash file: " ++ path.text ++ "\nDetails: " ++ details
  | .malformed path fault =>
    "hash file is malformed: " ++ path.text ++ "\nDetails: " ++ fault.message

/-- The fault behind a failed load, if the text was read at all. -/
def LoadError.fault? : LoadError → Option FormatError
  | .unreadable .. => none
  | .malformed _ fault => some fault

end Manifest

end BillOfMaterials
