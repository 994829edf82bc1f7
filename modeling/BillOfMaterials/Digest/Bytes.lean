import BillOfMaterials.Text.Hexadecimal

/-! # Bytes, words and padding

    Digests read a message in blocks of words and answer bytes.

    * `hex` writes bytes as small hexadecimal digits, two for each byte.
    * `pad` completes a message to whole blocks, ending in its length in bits.
    * `blocks` are a padded message's blocks. -/

namespace BillOfMaterials.Digest

open Text

/-! ## Hexadecimal text -/

/-- Bytes as hexadecimal text. -/
def hex (bytes : List UInt8) : String :=
  String.ofList (bytes.flatMap hexByte)

@[simp] theorem length_toList_hex (bytes : List UInt8) :
    (hex bytes).toList.length = 2 * bytes.length := by
  induction bytes with
  | nil => rfl
  | cons b bytes ih =>
    simp only [hex, String.toList_ofList, List.flatMap_cons, List.length_append,
      length_hexByte, List.length_cons] at ih ⊢
    omega

/-! ## Blocks -/

/-- A number's lowest `count` bytes, the highest of them first. -/
def bigEndian (count n : Nat) : List UInt8 :=
  (List.range count).map fun i => UInt8.ofNat (n >>> (8 * (count - 1 - i)))

@[simp] theorem length_bigEndian (count n : Nat) : (bigEndian count n).length = count := by
  simp [bigEndian]

/-- The number that bytes spell, the highest first. -/
def ofBigEndian (bytes : List UInt8) : Nat :=
  bytes.foldl (fun n b => n * 256 + b.toNat) 0

/-- Completes a message to a multiple of `block` bytes: a single bit, zeros, and
    the message's length in bits, written in `lengthBytes` bytes. -/
def pad (block lengthBytes : Nat) (message : List UInt8) : List UInt8 :=
  let used := (message.length + 1 + lengthBytes) % block
  message ++ 0x80 :: List.replicate ((block - used) % block) 0
    ++ bigEndian lengthBytes (8 * message.length)

/-- A list in parts of `size`; an incomplete part at the end is left out. -/
def blocks {α : Type} (size : Nat) (items : List α) : List (List α) :=
  if _whole : 0 < size ∧ (items.take size).length = size then
    items.take size :: blocks size (items.drop size)
  else []
  termination_by items.length
  decreasing_by simp only [List.length_take, List.length_drop] at *; omega

end BillOfMaterials.Digest
