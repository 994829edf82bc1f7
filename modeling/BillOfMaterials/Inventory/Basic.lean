import BillOfMaterials.Package.Basic
import BillOfMaterials.Toml.Document

/-! # Package inventories

    An inventory is a TOML document that lists packages, each in a table
    `[[package]]`.

    * `Inventory.Entry` is what one table says, before its name is checked.
    * `Inventory.ofText` are the packages of an inventory, or its first
      `Inventory.Fault`. -/

namespace BillOfMaterials.Inventory

open Toml (Value)

/-! ## Faults -/

/-- Why a text is no inventory. -/
inductive Fault where
  /-- The text is no TOML document. -/
  | notToml
  /-- The document holds something else than packages. -/
  | notPackages
  /-- A package has a bad name. -/
  | name (fault : PackageName.Fault)
  deriving DecidableEq, Repr

def Fault.message : Fault → String
  | .notToml => "the text is not a TOML document"
  | .notPackages => "the document does not describe packages"
  | .name fault => fault.message

/-! ## Entries -/

/-- What an inventory says of a package. -/
structure Entry where
  name : String
  version? : Option String
  revision? : Option String
  site? : Option String
  install : Install
  vcs : Vcs
  licenses : List String
  hashFile? : Option String

/-- The keys of an entry.  In this order they may also be given as a list. -/
def keys : List String :=
  ["name", "version", "revision", "site", "install-type", "vcs-type", "license", "hash-file"]

/-- The values of an entry under their keys.  A table has no others; a list has
    all of them, and what follows them has no meaning. -/
def members? : Value → Option (List (String × Value))
  | .table entries => if entries.all (·.1 ∈ keys) then some entries else none
  | .list items => if keys.length ≤ items.length then some (keys.zip items) else none
  | _ => none

def text? : Value → Option String
  | .text text => some text
  | _ => none

/-- The name of a kind: a text, or the one key of a table with nothing in it. -/
def kindName? : Value → Option String
  | .text name => some name
  | .table [(name, .table [])] => some name
  | .table [(name, .list [])] => some name
  | _ => none

/-- One license expression, or a list of them. -/
def licenses? : Value → Option (List String)
  | .text license => some [license]
  | .list items => items.mapM text?
  | _ => none

/-- The value under a key, if it is given; it must be one that `read` takes. -/
def optional {α : Type} (members : List (String × Value)) (key : String)
    (read : Value → Option α) : Option (Option α) :=
  match members.lookup key with
  | none => some none
  | some value => (read value).map some

def Entry.ofValue? (value : Value) : Option Entry := do
  let members ← members? value
  return {
    name := ← text? (← members.lookup "name")
    version? := ← optional members "version" text?
    revision? := ← optional members "revision" text?
    site? := ← optional members "site" text?
    install := (← optional members "install-type" (kindName? · >>= Install.ofName?)).getD default
    vcs := (← optional members "vcs-type" (kindName? · >>= Vcs.ofName?)).getD default
    licenses := (← optional members "license" licenses?).getD []
    hashFile? := ← optional members "hash-file" text? }

/-- The entries of a document, whose only key is `package`. -/
def entries? (document : List (String × Value)) : Option (List Entry) :=
  match document with
  | [] => some []
  | [("package", .list items)] => items.mapM Entry.ofValue?
  | _ => none

/-! ## Packages -/

/-- The package of an entry.  Its hash file is named from the inventory's
    directory. -/
def Entry.package (directory : Path) (entry : Entry) : Except Fault Package :=
  match PackageName.ofText entry.name with
  | .error fault => .error (.name fault)
  | .ok name => .ok {
      name
      version? := entry.version?
      revision? := entry.revision?
      site? := entry.site?
      install := entry.install
      vcs := entry.vcs
      licenses := entry.licenses
      hashFile? := entry.hashFile?.map fun file => directory.join ⟨file⟩ }

/-- The packages of an inventory in a directory. -/
def ofText (directory : Path) (text : String) : Except Fault (List Package) :=
  match Toml.ofText? text with
  | none => .error .notToml
  | some document =>
    match entries? document with
    | none => .error .notPackages
    | some entries => entries.mapM (Entry.package directory)

end BillOfMaterials.Inventory
