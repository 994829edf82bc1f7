import BillOfMaterials.Disk.Basic
import BillOfMaterials.Failure
import BillOfMaterials.Inventory.Basic

/-! # Inventories on a disk

    An inventory is read from a regular file of a bounded size, never through a
    symbolic link at its path.

    * `Inventory.Refusal` are the reasons for not reading a file.
    * `Inventory.read` reads an inventory, or fails. -/

namespace BillOfMaterials.Inventory

/-! ## Refusals -/

/-- Why a file is not read. -/
inductive Refusal where
  | noStatus (error : SystemError)
  | link
  | irregular
  | tooLarge (bytes : Nat)
  | noContent (error : SystemError)
  deriving DecidableEq, Repr

/-- The largest size of an inventory in bytes. -/
def maxBytes : Nat := 100 * 1024 * 1024

def Refusal.message (path : Path) : Refusal → String
  | .noStatus error => "Failed to read package inventory metadata: " ++ error.message
  | .link =>
    "Security: " ++ path.text ++
      " is a symbolic link. For security reasons, symbolic links are not allowed."
  | .irregular => path.text ++ " is not a regular file"
  | .tooLarge bytes =>
    "Security: " ++ path.text ++ " is too large (" ++ bytes.repr ++
      " bytes). Maximum allowed size is " ++ maxBytes.repr ++ " bytes."
  | .noContent error => "Failed to read package inventory: " ++ error.message

/-- Whether what stands at a path may be read. -/
def permit : Except SystemError Status → Except Refusal Unit
  | .error error => .error (.noStatus error)
  | .ok .link => .error .link
  | .ok .other => .error .irregular
  | .ok (.file bytes) => if maxBytes < bytes then .error (.tooLarge bytes) else .ok ()

/-! ## Reading -/

variable {m : Type → Type} [Monad m]

/-- The text of a file that may be read. -/
def readText (disk : Disk m) (path : Path) : m (Except Refusal String) := do
  match permit (← disk.status path) with
  | .error refusal => return .error refusal
  | .ok () => return (← disk.readText path).mapError .noContent

/-- What to do where there is no inventory. -/
def suggestion : String :=
  "Please specify the package inventory with the --inventory option, " ++
    "or set `inventory` in the configuration file."

/-- The packages that an inventory's text lists. -/
def parse (path : Path) (text : String) : Except Failure (List Package) :=
  (ofText (path.parent?.getD ⟨""⟩) text).mapError fun fault =>
    .inventoryMalformed path fault.message

/-- The packages of the inventory at a path. -/
def read (disk : Disk m) (path : Path) : m (Except Failure (List Package)) := do
  if ← disk.pathExists path then
    match ← readText disk path with
    | .error refusal => return .error (.unreadable path (refusal.message path))
    | .ok text => return parse path text
  else
    return .error (.inventoryNotFound path suggestion)

end BillOfMaterials.Inventory
