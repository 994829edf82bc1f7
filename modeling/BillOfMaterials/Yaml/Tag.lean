import BillOfMaterials.Text.Utf8

/-! # Tags

    A tag tells what a node is.  It is written in bytes, which need not be those
    of a text, and only a few tags mean anything to a reader of configurations.

    * `Tag` is what a tag means.
    * `Tag.ofBytes` is the meaning of a tag's bytes. -/

namespace BillOfMaterials.Yaml

open Text (encodeUtf8 decodeUtf8?)

inductive Tag where
  | null
  | boolean
  | integer
  | float
  /-- A tag of a program's own. -/
  | own
  /-- A tag of a program's own whose name is no text, so that it says nothing of
      the node. -/
  | nameless
  /-- Any other tag: a scalar with it is a text. -/
  | other
  deriving DecidableEq, Repr

namespace Tag

/-- The bytes before the first zero byte, where a tag ends. -/
def upToZero (bytes : List UInt8) : List UInt8 := bytes.takeWhile (· ≠ 0)

/-- What the tags begin with that all documents share. -/
def shared : String := "tag:yaml.org,2002:"

/-- The shared tags that tell how a scalar is read. -/
def ofScalars : List (List UInt8 × Tag) :=
  [("null", null), ("bool", boolean), ("int", integer), ("float", float)].map
    fun (name, tag) => (encodeUtf8 (shared ++ name), tag)

/-- What bytes mean as a tag.  One of a program's own begins with an exclamation
    mark. -/
def ofBytes (bytes : List UInt8) : Tag :=
  match ofScalars.lookup bytes, bytes with
  | some tag, _ => tag
  | none, 0x21 :: name => if (decodeUtf8? name).isSome then own else nameless
  | none, _ => other

end Tag

end BillOfMaterials.Yaml
