import BillOfMaterials.Format
import BillOfMaterials.Path

/-! # Arguments

    A run is asked for with options, each with a value.  An option has a letter
    and a name; its value is the next argument, or stands in the same one.

    * `Arguments` are the values of the options.
    * `Arguments.parse` reads a list of arguments, from left to right.
    * `Arguments.Stop` are the reasons for which no run follows. -/

namespace BillOfMaterials

/-- What the command line asks for. -/
structure Arguments where
  inventory? : Option Path := none
  /-- Formats to write, in the order in which they were asked for. -/
  selectors : List Selector := []
  outputDirectory? : Option Path := none
  config? : Option Path := none
  deriving DecidableEq, Repr

namespace Arguments

/-! ## Options -/

/-- The options that take values. -/
inductive Setting where
  | inventory
  | format
  | outputDirectory
  | config
  deriving DecidableEq, Repr

namespace Setting

def all : List Setting := [.inventory, .format, .outputDirectory, .config]

def letter : Setting → Char
  | .inventory => 'i'
  | .format => 'f'
  | .outputDirectory => 'o'
  | .config => 'c'

def name : Setting → String
  | .inventory => "inventory"
  | .format => "format"
  | .outputDirectory => "output-dir"
  | .config => "config"

def ofLetter? (letter : Char) : Option Setting := all.find? (·.letter = letter)

def ofName? (name : String) : Option Setting := all.find? (·.name = name)

end Setting

/-- Why no run follows. -/
inductive Stop where
  | help
  | version
  | invalid
  deriving DecidableEq, Repr

/-! ## Values -/

/-- A path as the value of an option that may be given once. -/
def path (given? : Option Path) (value : String) : Except Stop (Option Path) :=
  if given?.isSome || value.isEmpty then .error .invalid else .ok (some ⟨value⟩)

/-- Takes in the value of an option.  Only formats may be asked for again. -/
def set (arguments : Arguments) (setting : Setting) (value : String) : Except Stop Arguments :=
  match setting with
  | .inventory => do
    return { arguments with inventory? := ← path arguments.inventory? value }
  | .outputDirectory => do
    return { arguments with outputDirectory? := ← path arguments.outputDirectory? value }
  | .config => do return { arguments with config? := ← path arguments.config? value }
  | .format =>
    match Selector.ofText value with
    | .ok selector => .ok { arguments with selectors := arguments.selectors ++ [selector] }
    | .error _ => .error .invalid

/-! ## Reading -/

/-- What one argument says. -/
inductive Word where
  /-- Two hyphens alone: no options follow. -/
  | terminator
  /-- An option with its value. -/
  | set (setting : Setting) (value : String)
  /-- An option whose value is the next argument. -/
  | await (setting : Setting)
  | stop (stop : Stop)

/-- An option after two hyphens, with the value after an equals sign. -/
def Word.ofLong (text : List Char) : Word :=
  let name := String.ofList (text.takeWhile (· != '='))
  let value? := match text.dropWhile (· != '=') with
    | [] => none
    | _ :: value => some (String.ofList value)
  match Setting.ofName? name, value? with
  | some setting, some value => .set setting value
  | some setting, none => .await setting
  | none, some _ => .stop .invalid
  | none, none =>
    if name = "help" then .stop .help
    else if name = "version" then .stop .version
    else .stop .invalid

/-- An option's letter after one hyphen, with the value after it; an equals sign
    between them is left out. -/
def Word.ofShort (letter : Char) (rest : List Char) : Word :=
  match Setting.ofLetter? letter with
  | some setting =>
    match rest with
    | [] => .await setting
    | '=' :: value => .set setting (String.ofList value)
    | value => .set setting (String.ofList value)
  | none =>
    if letter = 'h' then .stop .help
    else if letter = 'V' then .stop .version
    else .stop .invalid

/-- Nothing but options may be given. -/
def Word.ofArgument (text : String) : Word :=
  match text.toList with
  | ['-', '-'] => .terminator
  | '-' :: '-' :: rest => .ofLong rest
  | '-' :: letter :: rest => .ofShort letter rest
  | _ => .stop .invalid

/-- Whether an argument is read as an option, and so is no value. -/
def looksLikeOption (text : String) : Bool :=
  match text.toList with
  | '-' :: _ :: _ => true
  | _ => false

/-- Reads arguments after those that are taken in already. -/
def parseFrom (arguments : Arguments) : List String → Except Stop Arguments
  | [] => .ok arguments
  | argument :: rest =>
    match Word.ofArgument argument with
    | .terminator => if rest.isEmpty then .ok arguments else .error .invalid
    | .stop stop => .error stop
    | .set setting value => do parseFrom (← arguments.set setting value) rest
    | .await setting =>
      match rest with
      | [] => .error .invalid
      | value :: rest =>
        if looksLikeOption value then .error .invalid
        else do parseFrom (← arguments.set setting value) rest

/-- Reads a list of arguments. -/
def parse (arguments : List String) : Except Stop Arguments := parseFrom {} arguments

end Arguments

end BillOfMaterials
