import BillOfMaterials.Config.Basic
import BillOfMaterials.Disk.Basic

/-! # Configurations on a disk

    * `Config.load` reads the configuration at a path.
    * `Config.discover` looks for one in a directory.
    * `Config.LoadError` are the ways in which that fails. -/

namespace BillOfMaterials.Config

/-! ## Errors -/

inductive LoadError where
  | unreadable (path : Path) (error : SystemError)
  | malformed (path : Path)
  | invalid (fault : Fault)
  deriving DecidableEq, Repr

/-- The name of configurations that are looked for. -/
def fileName : String := "releng-sbom.config.yml"

def Fault.message : Fault → String
  | .format fault =>
    "Invalid config: " ++ fault.message ++ Failure.hintMark ++
      "Check the `formats` list in " ++ fileName ++ "."
  | .noFormats =>
    "Invalid config: `formats` must not be empty." ++ Failure.hintMark ++
      "Remove the key to emit the default text report."

def LoadError.message : LoadError → String
  | .unreadable path _ =>
    "Failed to read config file: " ++ path.text ++ Failure.hintMark ++
      "Check that the file exists and is readable."
  | .malformed path =>
    "Failed to parse config file: " ++ path.text ++ Failure.hintMark ++
      "Ensure the file contains valid YAML syntax."
  | .invalid fault => fault.message

/-- What a failure to load comes from, if there is more to say. -/
def LoadError.cause? : LoadError → Option String
  | .unreadable _ error => some error.message
  | .malformed _ => some "the text is not a configuration in YAML"
  | .invalid _ => none

/-! ## Loading -/

/-- The configuration of a text that stands at a path. -/
def ofFile (path : Path) (text : String) : Except LoadError Config :=
  match ofText? text with
  | none => .error (.malformed path)
  | some config =>
    match config.check with
    | .error fault => .error (.invalid fault)
    | .ok () => .ok (match path.parent? with
      | some directory => config.relativeTo directory
      | none => config)

variable {m : Type → Type} [Monad m]

/-- The configuration at a path. -/
def load (disk : Disk m) (path : Path) : m (Except LoadError Config) := do
  match ← disk.readText path with
  | .error error => return .error (.unreadable path error)
  | .ok text => return ofFile path text

/-- The configuration in a directory, if there is one. -/
def discover (disk : Disk m) (directory : Path) : m (Except LoadError (Option Config)) := do
  let path := directory.join ⟨fileName⟩
  if ← disk.pathExists path then return some <$> (← load disk path)
  else return .ok none

end BillOfMaterials.Config
