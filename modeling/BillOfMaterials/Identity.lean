import BillOfMaterials.Digest.Basic
import BillOfMaterials.Text.Utf8

/-! # Identities

    Packages and projects are identified by digests of their names, so equal
    names give equal identities in every report.

    * `packageUid` digests one name.
    * `projectId` is short and depends on all names and their order.
    * `reportId` makes an identity for one report from random bytes. -/

namespace BillOfMaterials.Identity

open Text

/-- The tool's name, which all identities begin with. -/
def toolName : String := "releng-tool"

/-- What is digested for a package. -/
def packageText (name : String) : String := toolName ++ "-" ++ name

/-- What is digested for a project: each package's name after a semicolon, which
    no name holds. -/
def projectText (names : List String) : String :=
  toolName ++ String.join (names.map (";" ++ ·))

/-- The identity of a package. -/
def packageUid (name : String) : String := DigestKind.sha1.compute (encodeUtf8 (packageText name))

/-- The identity of a project: the first eight digits of a digest. -/
def projectId (names : List String) : String :=
  let digits := (DigestKind.sha1.compute (encodeUtf8 (projectText names))).toList
  toolName ++ "-" ++ String.ofList (digits.take 8)

/-- Bytes with the mark of a random identity: four bits tell that it is random,
    and two how its bytes are laid out. -/
def marked (bytes : List UInt8) : List UInt8 :=
  (bytes.modify 6 fun b => (b &&& 0x0F) ||| 0x40).modify 8 fun b => (b &&& 0x3F) ||| 0x80

/-- Hexadecimal digits in groups of bytes, with hyphens between them. -/
def grouped (sizes : List Nat) (bytes : List UInt8) : String :=
  match sizes with
  | [] => ""
  | [size] => String.ofList ((bytes.take size).flatMap hexByte)
  | size :: more =>
    String.ofList ((bytes.take size).flatMap hexByte) ++ "-" ++ grouped more (bytes.drop size)

/-- The identity of a report, from sixteen random bytes. -/
def reportId (random : List UInt8) : String := grouped [4, 2, 2, 2, 6] (marked random)

end BillOfMaterials.Identity
