import BillOfMaterials.Document
import BillOfMaterials.Event
import BillOfMaterials.Failure
import BillOfMaterials.Identity

/-! # Assembling a document

    Each package with sources of its own becomes a record in the bucket of its
    install kind.  A manifest that cannot be loaded counts as an empty one.

    * `Assembly` is what the packages so far amount to.
    * `Assembly.add` takes in one package and `Assembly.gather` a list of them;
      both also tell what happens.
    * `Assembly.document` is the document, given the report's `Stamp`. -/

namespace BillOfMaterials

/-- What is new with every report. -/
structure Stamp where
  reportId : String
  datetime : String
  deriving DecidableEq, Repr

/-- How manifests are loaded. -/
abbrev Loader := Path → Except Manifest.LoadError Manifest

/-- What the packages so far amount to. -/
structure Assembly where
  packages : Bucket
  hostPackages : Bucket
  /-- The distinct names, in the order in which they came first. -/
  names : List String

namespace Assembly

def empty : Assembly := { packages := .empty, hostPackages := .empty, names := [] }

/-! ## Packages -/

/-- The hashes of a package's sources, and what happens when they are loaded. -/
def hashes (load : Loader) (package : Package) : List Event × Manifest :=
  match package.hashFile? with
  | none => ([], .empty)
  | some path =>
    match load path with
    | .ok manifest => ([.load path], manifest)
    | .error error =>
      let reason := String.ofList (error.message.toList.map fun c => if c = '\n' then ' ' else c)
      ([.load path,
        .warning ("no hashes recorded for " ++ package.name.text ++ ": " ++ reason)], .empty)

/-- What is reported of a package with these hashes. -/
def record (package : Package) (hashes : Manifest) : Record where
  name := package.name.text
  version := package.reportedVersion
  site? := package.site?
  install := package.install
  vcs := package.vcs
  licenses := package.licenses
  hashes := hashes
  uid := Identity.packageUid package.name.text

/-- Puts a record into the bucket of its install kind. -/
def insert (assembly : Assembly) (record : Record) : Assembly where
  packages := if record.install = .target then assembly.packages.insert record
    else assembly.packages
  hostPackages := if record.install = .host then assembly.hostPackages.insert record
    else assembly.hostPackages
  names := if record.name ∈ assembly.names then assembly.names
    else assembly.names ++ [record.name]

/-- Takes in a package; one without sources is skipped. -/
def add (load : Loader) (assembly : Assembly) (package : Package) : List Event × Assembly :=
  if package.vcs = .none then
    ([.warning ("skipping package without sources: " ++ package.name.text)], assembly)
  else
    let (events, manifest) := hashes load package
    (events, assembly.insert (record package manifest))

/-- Takes in packages in order. -/
def gather (load : Loader) (assembly : Assembly) : List Package → List Event × Assembly
  | [] => ([], assembly)
  | package :: rest =>
    let (events, next) := add load assembly package
    let (more, final) := gather load next rest
    (events ++ more, final)

/-! ## The document -/

def document (assembly : Assembly) (stamp : Stamp) : Document where
  metadata :=
    { reportId := stamp.reportId
      toolVersion := Document.toolVersion
      projectId := Identity.projectId assembly.names
      datetime := stamp.datetime }
  packages := assembly.packages
  hostPackages := assembly.hostPackages

end Assembly

/-- The document of packages, and what happens while it is assembled. -/
def assemble (load : Loader) (stamp : Stamp) (packages : List Package) : List Event × Document :=
  let (events, assembly) := Assembly.gather load .empty packages
  (events, assembly.document stamp)

end BillOfMaterials
