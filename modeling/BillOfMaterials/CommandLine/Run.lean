import BillOfMaterials.CommandLine.Arguments
import BillOfMaterials.CommandLine.Console
import BillOfMaterials.Config.Reading
import BillOfMaterials.Generation.Perform
import BillOfMaterials.Identity
import BillOfMaterials.Inventory.Reading

/-! # Runs from the command line

    A run takes its settings from the command line, then from a configuration,
    and else from defaults.

    * `Settings.effective` are the settings that win.
    * `CommandLine.run` is a run on a disk.
    * `CommandLine.respond` is what the program says and how it ends. -/

namespace BillOfMaterials

/-! ## Settings -/

/-- What a run is made with. -/
structure Settings where
  inventory : Path
  selectors : List Selector
  outputDirectory : Path
  deriving DecidableEq, Repr

namespace Settings

def defaultInventory : Path := ⟨"packages.toml"⟩

def defaultOutputDirectory : Path := ⟨"."⟩

/-- The selectors of a configuration; none if it sets no formats. -/
def configured (config : Config) : List Selector :=
  match config.selectors with
  | .ok (some selectors) => selectors
  | _ => []

/-- What the command line asks for, else the configuration, else a default. -/
def effective (arguments : Arguments) (config : Config) : Settings where
  inventory := (arguments.inventory?.or config.inventory?).getD defaultInventory
  selectors := if arguments.selectors.isEmpty then configured config else arguments.selectors
  outputDirectory :=
    (arguments.outputDirectory?.or config.outputDirectory?).getD defaultOutputDirectory

end Settings

namespace CommandLine

/-! ## Runs -/

/-- Why a run does not begin. -/
inductive Obstacle where
  | config (error : Config.LoadError)
  | inventory (failure : Failure)
  deriving DecidableEq, Repr

def Obstacle.message : Obstacle → String
  | .config error => error.message
  | .inventory failure => failure.message

def Obstacle.cause? : Obstacle → Option String
  | .config error => error.cause?
  | .inventory _ => none

/-- What is reported of a field that means nothing. -/
def ignored (field : String) : Event :=
  .warning ("Unknown config field '" ++ field ++ "' will be ignored.")

/-- What is reported when the inventory is about to be read. -/
def announcement (inventory : Path) : Event :=
  .report ("📖 Loading package inventory from: " ++ inventory.text)

variable {m : Type → Type} [Monad m]

/-- The configuration that the command line names, else the one of the working
    directory, else an empty one. -/
def loadConfig (disk : Disk m) (config? : Option Path) : m (Except Config.LoadError Config) := do
  match config? with
  | some path => Config.load disk path
  | none => return (·.getD {}) <$> (← Config.discover disk ⟨"."⟩)

/-- A run: what happens, and whether every report was written. -/
def run (disk : Disk m) (stamp : Stamp) (arguments : Arguments) :
    m (List Event × Except Obstacle Bool) := do
  match ← loadConfig disk arguments.config? with
  | .error error => return ([], .error (.config error))
  | .ok config =>
    let settings := Settings.effective arguments config
    let begun := config.unknown.map ignored ++ [announcement settings.inventory]
    match ← Inventory.read disk settings.inventory with
    | .error failure => return (begun, .error (.inventory failure))
    | .ok packages =>
      let (events, success) ← Generation.perform disk stamp
        { packages
          selectors := settings.selectors
          outputDirectory := settings.outputDirectory }
      return (begun ++ events, .ok success)

/-! ## What the program says -/

/-- What a run of the program leaves behind it. -/
structure Response where
  status : ExitStatus
  output : String
  messages : String
  deriving DecidableEq, Repr

/-- How the program explains that a run did not begin. -/
def explain (obstacle : Obstacle) : String :=
  "\n❌ An error occurred:\n\n" ++ obstacle.message ++ "\n" ++
    (match obstacle.cause? with
      | some cause => "\nCaused by: " ++ cause ++ "\n"
      | none => "") ++ "\n"

def programName : String := "releng-sbom"

def versionText : String := programName ++ " " ++ Document.toolVersion ++ "\n"

def usage : String := "Usage: " ++ programName ++ " [OPTIONS]\n"

def helpText : String :=
  "Generate software bill of materials reports for a releng-tool build\n\n" ++ usage ++
    "\nOptions:\n" ++
    "  -i, --inventory <PATH>   Package inventory [default: packages.toml]\n" ++
    "  -f, --format <FORMAT>    Report format, may be repeated: csv, html, json,\n" ++
    "                           json-spdx, rdf-spdx, text, xml or all\n" ++
    "  -o, --output-dir <DIR>   Directory receiving the reports [default: .]\n" ++
    "  -c, --config <PATH>      Configuration file [default: " ++ Config.fileName ++
    ", when present]\n" ++
    "  -h, --help               Print help\n" ++
    "  -V, --version            Print version\n"

def usageText : String := "error: invalid arguments\n\n" ++ usage

/-- What the program says where no run follows. -/
def stopped : Arguments.Stop → Response
  | .help => { status := .success, output := helpText, messages := "" }
  | .version => { status := .success, output := versionText, messages := "" }
  | .invalid => { status := .invalidArguments, output := "", messages := usageText }

/-- What the program says of a run. -/
def concluded (events : List Event) : Except Obstacle Bool → Response
  | .ok success =>
    { status := if success then .success else .generationFailed
      output := ""
      messages := Console.transcript events }
  | .error obstacle =>
    { status := .applicationError
      output := ""
      messages := Console.transcript events ++ explain obstacle }

/-- What the program does with a list of arguments. -/
def respond (disk : Disk m) (stamp : Stamp) (arguments : List String) : m Response := do
  match Arguments.parse arguments with
  | .error stop => return stopped stop
  | .ok arguments =>
    let (events, result) ← run disk stamp arguments
    return concluded events result

end CommandLine

end BillOfMaterials
