import BillOfMaterials.Calendar
import BillOfMaterials.CommandLine.Run

/-! # The program

    The command line on the system's own disk.  Everything else is in
    `CommandLine.respond`. -/

open System (FilePath)

namespace BillOfMaterials.Program

/-! ## The system's disk -/

/-- The number of an error, which some operations give with a minus sign. -/
def errorNumber (number : UInt32) : Nat := number.toInt32.toInt.natAbs

/-- The refusal with a number and a text of the system. -/
def refusalOf (number : UInt32) (text : String) : SystemError :=
  match errorNumber number with
  | 2 => .notFound
  | 17 => .exists
  | 20 => .notDirectory
  | 21 => .isDirectory
  | 36 => .nameTooLong
  | 40 => .tooManyLinks
  | n => .other (SystemError.numbered text n)

/-- The refusal that an error of the system stands for. -/
def refusal : IO.Error → SystemError
  | .alreadyExists _ n text | .invalidArgument _ n text | .permissionDenied _ n text
  | .resourceExhausted _ n text | .inappropriateType _ n text | .noSuchThing _ n text =>
    refusalOf n text
  | .interrupted _ n text | .noFileOrDirectory _ n text => refusalOf n text
  | .otherError n text | .resourceBusy n text | .resourceVanished n text
  | .unsupportedOperation n text | .hardwareFault n text | .unsatisfiedConstraints n text
  | .illegalOperation n text | .protocolError n text | .timeExpired n text => refusalOf n text
  | error => .other (toString error)

/-- Tries something, and answers why the system refuses it. -/
def attempt {α : Type} (action : IO α) : IO (Except SystemError α) := do
  return (← action.toBaseIO).mapError refusal

def file (path : Path) : FilePath := path.text

def statusOf (metadata : IO.FS.Metadata) : Status :=
  match metadata.type with
  | .symlink => .link
  | .file => .file metadata.byteSize.toNat
  | _ => .other

/-- The operations on the system's disk. -/
def disk : Disk IO where
  pathExists path := (file path).pathExists
  isDirectory path := (file path).isDir
  status path := do return (← attempt (file path).symlinkMetadata).map statusOf
  read path := do return (← attempt (IO.FS.readBinFile (file path))).map (·.data.toList)
  makeDirectory path := attempt (IO.FS.createDir (file path))
  write path text := attempt (IO.FS.writeFile (file path) text)

/-! ## What is new with every report -/

/-- The present time, in the words of the system: when a new file was made. -/
def now : IO String := do
  let (_, made) ← IO.FS.createTempFile
  let time := (← made.metadata).modified
  IO.FS.removeFile made
  match Moment.ofUnix? time.sec time.nsec.toNat with
  | some moment => return moment.render
  | none => throw (.userError "the time is out of range")

def stamp : IO Stamp := do
  let random ← IO.getRandomBytes 16
  return { reportId := Identity.reportId random.data.toList, datetime := ← now }

/-- Runs the program, and answers its exit code. -/
def run (arguments : List String) : IO UInt32 := do
  let response ← CommandLine.respond disk (← stamp) arguments
  IO.print response.output
  IO.eprint response.messages
  return UInt32.ofNat response.status.code

end BillOfMaterials.Program

def main (arguments : List String) : IO UInt32 := BillOfMaterials.Program.run arguments
