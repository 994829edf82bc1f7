import BillOfMaterials.Failure
import BillOfMaterials.Format
import BillOfMaterials.Text.Sorted
import BillOfMaterials.Yaml.Value

/-! # Configurations

    A configuration is a YAML mapping that sets defaults for a run.

    * `Config.ofText?` reads a configuration.
    * `Config.check` finds what is wrong with the formats that it asks for.
    * `Config.relativeTo` reads its paths from a directory. -/

namespace BillOfMaterials

open Yaml (Node)

structure Config where
  /-- The formats to write, as they are written in the configuration. -/
  formats? : Option (List String) := none
  outputDirectory? : Option Path := none
  inventory? : Option Path := none
  /-- The names of fields that mean nothing here, in order. -/
  unknown : List String := []
  deriving DecidableEq, Repr

namespace Config

/-! ## Fields -/

/-- The names of the fields that a configuration may set. -/
def formatsField : String := "formats"
def outputDirectoryField : String := "output_dir"
def inventoryField : String := "inventory"

def fields : List String := [formatsField, outputDirectoryField, inventoryField]

/-- The text of a scalar, whatever else it may be read as. -/
def text? : Node → Option String
  | .scalar _ _ text => some text
  | _ => none

/-- A list of texts.  Nothing at all is a list, too. -/
def texts? : Node → Option (List String)
  | .sequence _ items => items.mapM text?
  | .scalar _ true "" => some []
  | _ => none

/-- Whether a field is set to a value.  It cannot be told for a scalar that is
    tagged as no value and is not written so. -/
def isSet? : Node → Option Bool
  | .scalar (some .null) true text => if Yaml.isNull text then some false else none
  | .scalar (some _) true _ => some true
  | .scalar none true text => some (!text.isEmpty && !Yaml.isNull text)
  | _ => some true

/-- The value of a field, if it is set.  It may be given once only. -/
def field? {α : Type} (read : Node → Option α) (name : String) (entries : List (String × Node)) :
    Option (Option α) :=
  match entries.filter (·.1 = name) with
  | [] => some none
  | [(_, value)] => do if ← isSet? value then return some (← read value) else return none
  | _ => none

/-- The names of the fields that mean nothing here, if all of them have values. -/
def unknownFields? (entries : List (String × Node)) : Option (List String) :=
  let others := entries.filter (·.1 ∉ fields)
  if others.all (·.2.valueKey?.isSome) then some (Text.sortedSet (others.map (·.1))) else none

/-! ## Reading -/

/-- The configuration of a mapping's entries. -/
def ofEntries? (entries : List (String × Node)) : Option Config := do
  return {
    formats? := ← field? texts? formatsField entries
    outputDirectory? := (← field? text? outputDirectoryField entries).map Path.mk
    inventory? := (← field? text? inventoryField entries).map Path.mk
    unknown := ← unknownFields? entries }

def ofNode? : Node → Option Config
  | .mapping _ entries => do
    ofEntries? (← entries.mapM fun (key, value) => (text? key).map (·, value))
  | .scalar _ true "" => some {}
  | _ => none

/-- The configuration of a text, if it is one. -/
def ofText? (text : String) : Option Config := do ofNode? (← Node.ofText? text)

/-- The configuration with its paths read from a directory. -/
def relativeTo (directory : Path) (config : Config) : Config :=
  { config with
    outputDirectory? := config.outputDirectory?.map directory.join
    inventory? := config.inventory?.map directory.join }

/-! ## Formats -/

/-- What the configuration asks for, or the first text that selects nothing. -/
def selectors (config : Config) : Except InvalidFormat (Option (List Selector)) :=
  match config.formats? with
  | none => .ok none
  | some formats => some <$> formats.mapM Selector.ofText

/-- What is wrong with a configuration. -/
inductive Fault where
  | format (fault : InvalidFormat)
  | noFormats
  deriving DecidableEq, Repr

/-- The first fault of a configuration, if there is one. -/
def check (config : Config) : Except Fault Unit :=
  match config.selectors with
  | .error fault => .error (.format fault)
  | .ok (some []) => .error .noFormats
  | .ok _ => .ok ()

end Config

end BillOfMaterials
