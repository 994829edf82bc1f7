import BillOfMaterials.Manifest.Parser
import BillOfMaterials.Text.Utf8
import BillOfMaterials.Verification

/-! # What a run needs of a disk

    * `SystemError` are the ways in which the system refuses a path.
    * `Disk` are the operations on files, in any monad.
    * `Disk.readText`, `Disk.loadManifest` and `Disk.makeDirectories` build on
      them. -/

namespace BillOfMaterials

/-! ## Refusals -/

/-- Why the system refuses an operation on a path. -/
inductive SystemError where
  | notFound
  | exists
  | notDirectory
  | isDirectory
  | nameTooLong
  | tooManyLinks
  /-- The path holds a character that no path can hold. -/
  | invalidPath
  /-- The file's bytes are no text. -/
  | notText
  /-- Any other refusal, in the system's words. -/
  | other (text : String)
  deriving DecidableEq, Repr

/-- The system's text for a refusal with an error number. -/
def SystemError.numbered (text : String) (number : Nat) : String :=
  text ++ " (os error " ++ number.repr ++ ")"

def SystemError.message : SystemError → String
  | .notFound => numbered "No such file or directory" 2
  | .exists => numbered "File exists" 17
  | .notDirectory => numbered "Not a directory" 20
  | .isDirectory => numbered "Is a directory" 21
  | .nameTooLong => numbered "File name too long" 36
  | .tooManyLinks => numbered "Too many levels of symbolic links" 40
  | .invalidPath => "file name contained an unexpected NUL byte"
  | .notText => "stream did not contain valid UTF-8"
  | .other text => text

/-! ## Operations -/

/-- What stands at a path, symbolic links not followed. -/
inductive Status where
  | link
  | file (size : Nat)
  | other
  deriving DecidableEq, Repr

/-- The operations on files. -/
structure Disk (m : Type → Type) where
  /-- Whether something stands at a path, links followed. -/
  pathExists : Path → m Bool
  /-- Whether a directory stands at a path, links followed. -/
  isDirectory : Path → m Bool
  status : Path → m (Except SystemError Status)
  /-- A file's bytes, links followed. -/
  read : Path → m (Except SystemError (List UInt8))
  /-- Makes one directory, where nothing stands yet. -/
  makeDirectory : Path → m (Except SystemError Unit)
  /-- Makes or replaces a file. -/
  write : Path → String → m (Except SystemError Unit)

namespace Disk

variable {m : Type → Type} [Monad m]

/-! ## Reading -/

/-- The text of a file. -/
def readText (disk : Disk m) (path : Path) : m (Except SystemError String) := do
  match ← disk.read path with
  | .error error => return .error error
  | .ok bytes =>
    match Text.decodeUtf8? bytes with
    | some text => return .ok text
    | none => return .error .notText

/-- The bytes of a file, or what the system says of a failure. -/
def readAsset (disk : Disk m) (path : Path) : m (Except String (List UInt8)) := do
  return (← disk.read path).mapError SystemError.message

def loadManifest (disk : Disk m) (path : Path) : m (Except Manifest.LoadError Manifest) := do
  return Manifest.load path ((← disk.readText path).mapError SystemError.message)

/-! ## Directories -/

/-- A path and the paths above it, the nearest first, at most `fuel` of them.
    The empty path and the root are left out. -/
def ancestors (fuel : Nat) (path : Path) : List Path :=
  match fuel, path.parent? with
  | fuel + 1, some parent => if path.text.isEmpty then [] else path :: ancestors fuel parent
  | _, _ => []

/-- Whether a refusal to make a directory does not matter, because it is there. -/
def isThere (disk : Disk m) (path : Path) (error : SystemError) : m Bool := do
  if error = .exists then disk.isDirectory path else return false

/-- Goes up from a path until a directory is there or can be made, and answers
    the paths on the way that are still lacking, the highest first. -/
def climb (disk : Disk m) (lacking : List Path) :
    List Path → m (Except SystemError (List Path))
  | [] => return .ok lacking
  | path :: above => do
    match ← disk.makeDirectory path with
    | .ok () => return .ok lacking
    | .error .notFound => climb disk (path :: lacking) above
    | .error error => if ← disk.isThere path error then return .ok lacking else return .error error

/-- Makes directories in order. -/
def descend (disk : Disk m) : List Path → m (Except SystemError Unit)
  | [] => return .ok ()
  | path :: below => do
    match ← disk.makeDirectory path with
    | .ok () => descend disk below
    | .error error => if ← disk.isThere path error then descend disk below else return .error error

/-- Makes a directory and those above it.  Where that fails, directories that
    are made by then stay. -/
def makeDirectories (disk : Disk m) (path : Path) : m (Except SystemError Unit) := do
  match ← climb disk [] (ancestors (path.text.length + 1) path) with
  | .ok lacking => descend disk lacking
  | .error error => return .error error

end Disk

end BillOfMaterials
