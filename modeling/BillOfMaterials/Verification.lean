import BillOfMaterials.Digest.Basic
import BillOfMaterials.Manifest.Basic

/-! # Verifying files against a manifest

    A file passes when every algorithm that the manifest lists for its name
    gives one of the digests listed for that algorithm.

    * `Reader` answers what manifests and files hold.
    * `verifyAsset` checks one file, `verify` a list of files and
      `verifyDirectory` all files that a manifest lists.
    * `VerifyError` is the first reason why a file does not pass. -/

namespace BillOfMaterials

/-! ## What is read -/

/-- What can be read: the manifest of a path, and the bytes of a file. -/
structure Reader where
  manifest : Path → Except Manifest.LoadError Manifest
  /-- The bytes, or what the system says of a failure. -/
  asset : Path → Except String (List UInt8)

inductive VerifyError where
  | manifest (error : Manifest.LoadError)
  | missingEntry (asset : String)
  | assetUnreadable (path : Path) (details : String)
  | unsupportedAlgorithm (algorithm asset : String)
  | mismatch (asset algorithm expected computed : String)
  deriving DecidableEq, Repr

def VerifyError.message : VerifyError → String
  | .manifest error => error.message
  | .missingEntry asset => "no hash entry for file: " ++ asset
  | .assetUnreadable path details =>
    "unable to read file for hashing: " ++ path.text ++ "\nDetails: " ++ details
  | .unsupportedAlgorithm algorithm asset =>
    "unsupported hash algorithm '" ++ algorithm ++ "' for file: " ++ asset
  | .mismatch asset algorithm expected computed =>
    "hash mismatch for " ++ asset ++ " (" ++ algorithm ++ ")\n  expected: " ++ expected ++
      "\n  computed: " ++ computed

namespace Verification

/-! ## One file -/

/-- The digests that entries list for an algorithm. -/
def accepted (entries : List Manifest.Entry) (algorithm : Manifest.Algorithm) : List String :=
  (entries.filter (·.algorithm = algorithm)).map (·.digest)

/-- Checks bytes under one algorithm against the digests listed for it. -/
def verifyAlgorithm (asset : String) (entries : List Manifest.Entry) (bytes : List UInt8)
    (algorithm : Manifest.Algorithm) : Except VerifyError Unit :=
  match DigestKind.resolve algorithm.name algorithm.keyLength? with
  | none => .error (.unsupportedAlgorithm algorithm.render asset)
  | some kind =>
    let computed := kind.compute bytes
    let expected := accepted entries algorithm
    if computed ∈ expected then .ok ()
    else .error (.mismatch asset algorithm.render (String.intercalate ", " expected) computed)

/-- The name under which a manifest lists the file of a path: its last
    component, or nothing. -/
def assetName (path : Path) : String := path.fileName?.getD ""

/-- The first error that a check finds in a list. -/
def checkAll {α : Type} (check : α → Except VerifyError Unit) : List α → Except VerifyError Unit
  | [] => .ok ()
  | first :: rest => do
    check first
    checkAll check rest

/-- Checks the file of a path: each algorithm that the manifest lists for its
    name, in the order of their first entries. -/
def verifyAsset (reader : Reader) (manifest : Manifest) (path : Path) : Except VerifyError Unit :=
  let asset := assetName path
  let entries := manifest.entriesFor asset
  if entries.isEmpty then .error (.missingEntry asset)
  else
    match reader.asset path with
    | .error details => .error (.assetUnreadable path details)
    | .ok bytes =>
      checkAll (verifyAlgorithm asset entries bytes) (entries.map (·.algorithm)).eraseDups

/-! ## Many files -/

/-- The manifest of a path. -/
def load (reader : Reader) (path : Path) : Except VerifyError Manifest :=
  match reader.manifest path with
  | .ok manifest => .ok manifest
  | .error error => .error (.manifest error)

/-- Checks files against the manifest of a path, up to the first that fails. -/
def verify (reader : Reader) (manifestPath : Path) (assets : List Path) :
    Except VerifyError Unit := do
  let manifest ← load reader manifestPath
  checkAll (verifyAsset reader manifest) assets

/-- The names of the files that a manifest lists, in order. -/
def listedAssets (manifest : Manifest) : List String :=
  (manifest.entries.map (·.asset)).eraseDups

/-- Checks every file that the manifest of a path lists, inside a directory. -/
def verifyDirectory (reader : Reader) (manifestPath directory : Path) :
    Except VerifyError Unit := do
  let manifest ← load reader manifestPath
  checkAll (verifyAsset reader manifest)
    ((listedAssets manifest).map fun asset => directory.join ⟨asset⟩)

end Verification

end BillOfMaterials
