import BillOfMaterials.Digest.Bytes

/-! # SHA-1

    The digest of 160 bits, over blocks of sixteen 32-bit words. -/

namespace BillOfMaterials.Digest.Sha1

/-- The five words that a message is digested into. -/
structure State where
  a : UInt32
  b : UInt32
  c : UInt32
  d : UInt32
  e : UInt32
  deriving DecidableEq, Repr

def initial : State :=
  { a := 0x67452301, b := 0xefcdab89, c := 0x98badcfe, d := 0x10325476, e := 0xc3d2e1f0 }

def rotateLeft (x k : UInt32) : UInt32 := (x <<< k) ||| (x >>> (32 - k))

/-- The eighty words of a block: its own sixteen, then mixtures of earlier ones. -/
def schedule (block : List UInt8) : Array UInt32 :=
  let own := (blocks 4 block).map fun word => UInt32.ofNat (ofBigEndian word)
  (List.range 64).foldl (fun words i =>
    let word (back : Nat) := words.getD (16 + i - back) 0
    words.push (rotateLeft (word 3 ^^^ word 8 ^^^ word 14 ^^^ word 16) 1)) own.toArray

/-- The mixing function and the constant of a round. -/
def roundTerm (t : Nat) (s : State) : UInt32 :=
  if t < 20 then ((s.b &&& s.c) ||| (~~~s.b &&& s.d)) + 0x5a827999
  else if t < 40 then (s.b ^^^ s.c ^^^ s.d) + 0x6ed9eba1
  else if t < 60 then ((s.b &&& s.c) ||| (s.b &&& s.d) ||| (s.c &&& s.d)) + 0x8f1bbcdc
  else (s.b ^^^ s.c ^^^ s.d) + 0xca62c1d6

def round (t : Nat) (word : UInt32) (s : State) : State :=
  { a := rotateLeft s.a 5 + roundTerm t s + s.e + word
    b := s.a
    c := rotateLeft s.b 30
    d := s.c
    e := s.d }

/-- Digests one block of 64 bytes. -/
def compress (s : State) (block : List UInt8) : State :=
  let words := schedule block
  let mixed := (List.range 80).foldl (fun r t => round t (words.getD t 0) r) s
  { a := s.a + mixed.a, b := s.b + mixed.b, c := s.c + mixed.c, d := s.d + mixed.d,
    e := s.e + mixed.e }

/-- The state's words as bytes. -/
def State.bytes (s : State) : List UInt8 :=
  [s.a, s.b, s.c, s.d, s.e].flatMap fun word => bigEndian 4 word.toNat

/-- The SHA-1 digest of a message. -/
def digest (message : List UInt8) : List UInt8 :=
  ((blocks 64 (pad 64 8 message)).foldl compress initial).bytes

@[simp] theorem length_digest (message : List UInt8) : (digest message).length = 20 := by
  simp [digest, State.bytes]

end BillOfMaterials.Digest.Sha1
