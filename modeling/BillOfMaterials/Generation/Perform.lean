import BillOfMaterials.Disk.Basic
import BillOfMaterials.Generation

/-! # Runs on a disk

    A run prepares its directory, then reads all manifests and then writes all
    reports.  What is read is thus settled before the first report is written,
    and the run is known but for the writes.

    * `Generation.prepare`, `loadAll` and `write` are the steps on the disk.
    * `Generation.perform` does them in order, up to the first that fails, and
      tells the run as `Generation.generate` does. -/

namespace BillOfMaterials.Generation

variable {m : Type → Type} [Monad m]

/-! ## Steps -/

def prepare (disk : Disk m) (directory : Path) : m (Except Failure Unit) := do
  return (← disk.makeDirectories directory).mapError fun error =>
    .outputUnavailable directory error.message

/-- Why nothing is written through a symbolic link. -/
def linkRefusal : String :=
  "Security: Output path is a symbolic link. " ++
    "For security reasons, writing to symbolic links is not allowed."

/-- Writes a report, unless a symbolic link is in its place. -/
def write (disk : Disk m) (path : Path) (content : String) : m (Except Failure Unit) := do
  match ← disk.status path with
  | .ok .link => return .error (.unwritable path linkRefusal)
  | _ => return (← disk.write path content).mapError fun error => .unwritable path error.message

/-- The manifests that a run needs, by path. -/
def manifestPaths (packages : List Package) : List Path :=
  (packages.filter (·.vcs ≠ .none)).filterMap (·.hashFile?)

/-- Loads manifests. -/
def loadAll (disk : Disk m) :
    List Path → m (List (Path × Except Manifest.LoadError Manifest))
  | [] => return []
  | path :: rest => do
    let loaded ← disk.loadManifest path
    return (path, loaded) :: (← loadAll disk rest)

/-- The loader of manifests that were loaded before. -/
def loaderOf (loaded : List (Path × Except Manifest.LoadError Manifest)) : Loader :=
  fun path => (loaded.lookup path).getD (.ok .empty)

/-- The reports that a run writes. -/
def writes (events : List Event) : List (Path × String) :=
  events.filterMap fun
    | .write path content => some (path, content)
    | _ => none

/-- Writes reports up to the first that fails, and tells which. -/
def writeAll (disk : Disk m) : List (Path × String) → m (Option (Path × Failure))
  | [] => return none
  | (path, content) :: rest => do
    match ← write disk path content with
    | .error failure => return some (path, failure)
    | .ok () => writeAll disk rest

/-! ## Runs -/

/-- Surroundings in which at most one write fails. -/
def settled (prepared : Except Failure Unit) (load : Loader)
    (refused? : Option (Path × Failure)) : Surroundings where
  prepare _ := prepared
  load := load
  write path :=
    match refused? with
    | some (refused, failure) => if path = refused then .error failure else .ok ()
    | none => .ok ()

/-- A run on a disk: what happens, and whether every report was written. -/
def perform (disk : Disk m) (stamp : Stamp) (request : Request) : m (List Event × Bool) := do
  let prepared ← prepare disk request.outputDirectory
  match prepared with
  | .error _ => return generate (settled prepared (loaderOf []) none) stamp request
  | .ok () =>
    let load := loaderOf (← loadAll disk (manifestPaths request.packages))
    let (planned, _) := execute (settled prepared load none) stamp request
    let refused? ← writeAll disk (writes planned)
    return generate (settled prepared load refused?) stamp request

end BillOfMaterials.Generation
