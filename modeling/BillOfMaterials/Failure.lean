import BillOfMaterials.Path

/-! # Failures of a run

    * `Failure` are the causes for which a run ends without its reports.
    * `Failure.message` explains one to the user, with a hint.
    * `Failure.summary` is one line about it. -/

namespace BillOfMaterials

inductive Failure where
  /-- There is no inventory of packages. -/
  | inventoryNotFound (path : Path) (suggestion : String)
  /-- The inventory's text is none. -/
  | inventoryMalformed (path : Path) (details : String)
  | unreadable (path : Path) (details : String)
  | outputUnavailable (path : Path) (details : String)
  | unwritable (path : Path) (details : String)
  | other (message : String)
  deriving DecidableEq, Repr

namespace Failure

/-- What begins a hint in a message. -/
def hintMark : String := "\n\n💡 Hint: "

/-- A path, what went wrong there, and a hint. -/
def explain (what : String) (path : Path) (details hint : String) : String :=
  what ++ ": " ++ path.text ++ "\nDetails: " ++ details ++ hintMark ++ hint

def message : Failure → String
  | .inventoryNotFound path suggestion =>
    "Package inventory not found: " ++ path.text ++ hintMark ++ suggestion
  | .inventoryMalformed path details =>
    explain "Failed to parse package inventory" path details
      "Please verify that the inventory is valid TOML with [[package]] tables"
  | .unreadable path details =>
    explain "Failed to read file" path details
      "Please verify that the file exists and you have read permissions"
  | .outputUnavailable path details =>
    explain "Unable to prepare output directory" path details
      "Please verify that the location is writable"
  | .unwritable path details =>
    explain "Failed to write SBOM file" path details
      "Please verify that the directory exists and you have write permissions"
  | .other message => message

/-- A space in the place of each line break. -/
def oneLine (text : String) : String :=
  String.ofList (text.toList.map fun c => if c = '\r' || c = '\n' then ' ' else c)

/-- One line about a failure, with the path and what the system said of it. -/
def summary (failure : Failure) : String :=
  oneLine <| match failure with
    | .unwritable path details => "unable to write SBOM file " ++ path.text ++ ": " ++ details
    | .outputUnavailable path details =>
      "unable to prepare SBOM directory " ++ path.text ++ ": " ++ details
    | failure => "unable to generate SBOM: " ++ failure.message

end Failure

/-! ## How a run ends -/

/-- The status with which the program ends. -/
inductive ExitStatus where
  | success
  | generationFailed
  | invalidArguments
  | applicationError
  deriving DecidableEq, Repr

namespace ExitStatus

def code : ExitStatus → Nat
  | .success => 0
  | .generationFailed => 1
  | .invalidArguments => 2
  | .applicationError => 3

def all : List ExitStatus :=
  [.success, .generationFailed, .invalidArguments, .applicationError]

def ofCode? (code : Nat) : Option ExitStatus := all.find? (·.code = code)

def message : ExitStatus → String
  | .success => "Success (0)"
  | .generationFailed => "Generation Failed (1)"
  | .invalidArguments => "Invalid Arguments (2)"
  | .applicationError => "Application Error (3)"

end ExitStatus

end BillOfMaterials
