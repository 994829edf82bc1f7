import BillOfMaterials.Digest.Sha1
import BillOfMaterials.Digest.Sha2
import BillOfMaterials.Digest.Shake
import BillOfMaterials.Text.Case

/-! # Digest kinds

    The hash algorithms that can be computed, and how a manifest names them.

    * `DigestKind.resolve` finds the kind for a name in any case and a key
      length.
    * `DigestKind.compute` is the digest of a message as hexadecimal text. -/

namespace BillOfMaterials

/-- A hash algorithm.  The two SHAKE algorithms carry the wanted number of
    output bytes. -/
inductive DigestKind where
  | sha1
  | sha224
  | sha256
  | sha384
  | sha512
  | shake128 (length : Nat)
  | shake256 (length : Nat)
  deriving DecidableEq, Repr

namespace DigestKind

/-- The largest output that a SHAKE algorithm is asked for, in bytes. -/
def maxOutput : Nat := 64 * 1024

/-- The kind of a name, in any case, with a key length.  Algorithms of fixed
    length take no key length; the others need one within `maxOutput`. -/
def resolve (name : String) (keyLength? : Option Nat) : Option DigestKind :=
  match Text.lowered name, keyLength? with
  | "sha1", none => some .sha1
  | "sha224", none => some .sha224
  | "sha256", none => some .sha256
  | "sha384", none => some .sha384
  | "sha512", none => some .sha512
  | "shake128", some length => if length ≤ maxOutput then some (.shake128 length) else none
  | "shake256", some length => if length ≤ maxOutput then some (.shake256 length) else none
  | _, _ => none

/-- The digest of a message in bytes. -/
def digest (message : List UInt8) : DigestKind → List UInt8
  | .sha1 => Digest.Sha1.digest message
  | .sha224 => Digest.Sha2.sha224 message
  | .sha256 => Digest.Sha2.sha256 message
  | .sha384 => Digest.Sha2.sha384 message
  | .sha512 => Digest.Sha2.sha512 message
  | .shake128 length => Digest.Shake.shake128 length message
  | .shake256 length => Digest.Shake.shake256 length message

/-- The digest of a message as hexadecimal text in small letters. -/
def compute (kind : DigestKind) (message : List UInt8) : String :=
  Digest.hex (kind.digest message)

/-- The number of bytes in a digest. -/
def size : DigestKind → Nat
  | .sha1 => 20
  | .sha224 => 28
  | .sha256 => 32
  | .sha384 => 48
  | .sha512 => 64
  | .shake128 length => length
  | .shake256 length => length

@[simp] theorem length_digest (kind : DigestKind) (message : List UInt8) :
    (kind.digest message).length = kind.size := by
  cases kind <;> simp [digest, size]

end DigestKind

end BillOfMaterials
