import BillOfMaterials.Digest.Bytes

/-! # The SHA-2 family

    One algorithm over words of 32 bits (SHA-224, SHA-256) or 64 bits
    (SHA-384, SHA-512).

    * `Width` holds what depends on the size of a word.
    * `State` are the eight words a message is digested into.
    * `sha224` to `sha512` differ in width, initial state and cut. -/

namespace BillOfMaterials.Digest.Sha2

/-! ## The two widths -/

/-- What depends on the size of a word `W`. -/
structure Width (W : Type) where
  wordBytes : Nat
  ofNat : Nat → W
  toNat : W → Nat
  /-- Added in each round: fractional parts of the cube roots of the first primes. -/
  constants : List W
  /-- The functions of the rounds. -/
  bigSigma0 : W → W
  bigSigma1 : W → W
  /-- The functions of the schedule. -/
  smallSigma0 : W → W
  smallSigma1 : W → W

def rotate32 (x k : UInt32) : UInt32 := (x >>> k) ||| (x <<< (32 - k))

def rotate64 (x k : UInt64) : UInt64 := (x >>> k) ||| (x <<< (64 - k))

/-- Words of 32 bits in 64 rounds. -/
def width32 : Width UInt32 where
  wordBytes := 4
  ofNat := UInt32.ofNat
  toNat := UInt32.toNat
  constants := [
    0x428a2f98, 0x71374491, 0xb5c0fbcf, 0xe9b5dba5, 0x3956c25b, 0x59f111f1, 0x923f82a4,
    0xab1c5ed5, 0xd807aa98, 0x12835b01, 0x243185be, 0x550c7dc3, 0x72be5d74, 0x80deb1fe,
    0x9bdc06a7, 0xc19bf174, 0xe49b69c1, 0xefbe4786, 0x0fc19dc6, 0x240ca1cc, 0x2de92c6f,
    0x4a7484aa, 0x5cb0a9dc, 0x76f988da, 0x983e5152, 0xa831c66d, 0xb00327c8, 0xbf597fc7,
    0xc6e00bf3, 0xd5a79147, 0x06ca6351, 0x14292967, 0x27b70a85, 0x2e1b2138, 0x4d2c6dfc,
    0x53380d13, 0x650a7354, 0x766a0abb, 0x81c2c92e, 0x92722c85, 0xa2bfe8a1, 0xa81a664b,
    0xc24b8b70, 0xc76c51a3, 0xd192e819, 0xd6990624, 0xf40e3585, 0x106aa070, 0x19a4c116,
    0x1e376c08, 0x2748774c, 0x34b0bcb5, 0x391c0cb3, 0x4ed8aa4a, 0x5b9cca4f, 0x682e6ff3,
    0x748f82ee, 0x78a5636f, 0x84c87814, 0x8cc70208, 0x90befffa, 0xa4506ceb, 0xbef9a3f7,
    0xc67178f2]
  bigSigma0 x := rotate32 x 2 ^^^ rotate32 x 13 ^^^ rotate32 x 22
  bigSigma1 x := rotate32 x 6 ^^^ rotate32 x 11 ^^^ rotate32 x 25
  smallSigma0 x := rotate32 x 7 ^^^ rotate32 x 18 ^^^ (x >>> 3)
  smallSigma1 x := rotate32 x 17 ^^^ rotate32 x 19 ^^^ (x >>> 10)

/-- Words of 64 bits in 80 rounds. -/
def width64 : Width UInt64 where
  wordBytes := 8
  ofNat := UInt64.ofNat
  toNat := UInt64.toNat
  constants := [
    0x428a2f98d728ae22, 0x7137449123ef65cd, 0xb5c0fbcfec4d3b2f, 0xe9b5dba58189dbbc,
    0x3956c25bf348b538, 0x59f111f1b605d019, 0x923f82a4af194f9b, 0xab1c5ed5da6d8118,
    0xd807aa98a3030242, 0x12835b0145706fbe, 0x243185be4ee4b28c, 0x550c7dc3d5ffb4e2,
    0x72be5d74f27b896f, 0x80deb1fe3b1696b1, 0x9bdc06a725c71235, 0xc19bf174cf692694,
    0xe49b69c19ef14ad2, 0xefbe4786384f25e3, 0x0fc19dc68b8cd5b5, 0x240ca1cc77ac9c65,
    0x2de92c6f592b0275, 0x4a7484aa6ea6e483, 0x5cb0a9dcbd41fbd4, 0x76f988da831153b5,
    0x983e5152ee66dfab, 0xa831c66d2db43210, 0xb00327c898fb213f, 0xbf597fc7beef0ee4,
    0xc6e00bf33da88fc2, 0xd5a79147930aa725, 0x06ca6351e003826f, 0x142929670a0e6e70,
    0x27b70a8546d22ffc, 0x2e1b21385c26c926, 0x4d2c6dfc5ac42aed, 0x53380d139d95b3df,
    0x650a73548baf63de, 0x766a0abb3c77b2a8, 0x81c2c92e47edaee6, 0x92722c851482353b,
    0xa2bfe8a14cf10364, 0xa81a664bbc423001, 0xc24b8b70d0f89791, 0xc76c51a30654be30,
    0xd192e819d6ef5218, 0xd69906245565a910, 0xf40e35855771202a, 0x106aa07032bbd1b8,
    0x19a4c116b8d2d0c8, 0x1e376c085141ab53, 0x2748774cdf8eeb99, 0x34b0bcb5e19b48a8,
    0x391c0cb3c5c95a63, 0x4ed8aa4ae3418acb, 0x5b9cca4f7763e373, 0x682e6ff3d6b2b8a3,
    0x748f82ee5defb2fc, 0x78a5636f43172f60, 0x84c87814a1f0ab72, 0x8cc702081a6439ec,
    0x90befffa23631e28, 0xa4506cebde82bde9, 0xbef9a3f7b2c67915, 0xc67178f2e372532b,
    0xca273eceea26619c, 0xd186b8c721c0c207, 0xeada7dd6cde0eb1e, 0xf57d4f7fee6ed178,
    0x06f067aa72176fba, 0x0a637dc5a2c898a6, 0x113f9804bef90dae, 0x1b710b35131c471b,
    0x28db77f523047d84, 0x32caab7b40c72493, 0x3c9ebe0a15c9bebc, 0x431d67c49c100d4c,
    0x4cc5d4becb3e42b6, 0x597f299cfc657e2a, 0x5fcb6fab3ad6faec, 0x6c44198c4a475817]
  bigSigma0 x := rotate64 x 28 ^^^ rotate64 x 34 ^^^ rotate64 x 39
  bigSigma1 x := rotate64 x 14 ^^^ rotate64 x 18 ^^^ rotate64 x 41
  smallSigma0 x := rotate64 x 1 ^^^ rotate64 x 8 ^^^ (x >>> 7)
  smallSigma1 x := rotate64 x 19 ^^^ rotate64 x 61 ^^^ (x >>> 6)

/-! ## Digesting -/

/-- The eight words that a message is digested into. -/
structure State (W : Type) where
  a : W
  b : W
  c : W
  d : W
  e : W
  f : W
  g : W
  h : W

variable {W : Type} [Add W] [AndOp W] [XorOp W] [Complement W]

/-- The words of a block, one for each round: its own sixteen, then mixtures of
    earlier ones. -/
def schedule (width : Width W) (block : List UInt8) : Array W :=
  let own := (blocks width.wordBytes block).map fun word => width.ofNat (ofBigEndian word)
  (List.range (width.constants.length - 16)).foldl (fun words i =>
    let word (back : Nat) := words.getD (16 + i - back) (width.ofNat 0)
    words.push (width.smallSigma1 (word 2) + word 7 + width.smallSigma0 (word 15) + word 16))
    own.toArray

def round (width : Width W) (s : State W) (constant word : W) : State W :=
  let choice := (s.e &&& s.f) ^^^ (~~~s.e &&& s.g)
  let majority := (s.a &&& s.b) ^^^ (s.a &&& s.c) ^^^ (s.b &&& s.c)
  let first := s.h + width.bigSigma1 s.e + choice + constant + word
  { a := first + (width.bigSigma0 s.a + majority)
    b := s.a
    c := s.b
    d := s.c
    e := s.d + first
    f := s.e
    g := s.f
    h := s.g }

/-- Digests one block of sixteen words. -/
def compress (width : Width W) (s : State W) (block : List UInt8) : State W :=
  let mixed := (width.constants.zip (schedule width block).toList).foldl
    (fun r (constant, word) => round width r constant word) s
  { a := s.a + mixed.a, b := s.b + mixed.b, c := s.c + mixed.c, d := s.d + mixed.d,
    e := s.e + mixed.e, f := s.f + mixed.f, g := s.g + mixed.g, h := s.h + mixed.h }

/-- The state's words as bytes. -/
def State.bytes (width : Width W) (s : State W) : List UInt8 :=
  [s.a, s.b, s.c, s.d, s.e, s.f, s.g, s.h].flatMap fun word =>
    bigEndian width.wordBytes (width.toNat word)

/-- The digest of a message from an initial state, before any cut. -/
def digest (width : Width W) (initial : State W) (message : List UInt8) : List UInt8 :=
  ((blocks (16 * width.wordBytes)
    (pad (16 * width.wordBytes) (2 * width.wordBytes) message)).foldl
      (compress width) initial).bytes width

theorem length_digest (width : Width W) (initial : State W) (message : List UInt8) :
    (digest width initial message).length = 8 * width.wordBytes := by
  simp only [digest, State.bytes, List.flatMap_cons, List.flatMap_nil, List.length_append,
    length_bigEndian, List.length_nil]
  omega

/-! ## The members -/

def sha224 (message : List UInt8) : List UInt8 :=
  (digest width32 ⟨0xc1059ed8, 0x367cd507, 0x3070dd17, 0xf70e5939, 0xffc00b31,
    0x68581511, 0x64f98fa7, 0xbefa4fa4⟩ message).take 28

def sha256 (message : List UInt8) : List UInt8 :=
  digest width32 ⟨0x6a09e667, 0xbb67ae85, 0x3c6ef372, 0xa54ff53a, 0x510e527f,
    0x9b05688c, 0x1f83d9ab, 0x5be0cd19⟩ message

def sha384 (message : List UInt8) : List UInt8 :=
  (digest width64 ⟨0xcbbb9d5dc1059ed8, 0x629a292a367cd507, 0x9159015a3070dd17,
    0x152fecd8f70e5939, 0x67332667ffc00b31, 0x8eb44a8768581511,
    0xdb0c2e0d64f98fa7, 0x47b5481dbefa4fa4⟩ message).take 48

def sha512 (message : List UInt8) : List UInt8 :=
  digest width64 ⟨0x6a09e667f3bcc908, 0xbb67ae8584caa73b, 0x3c6ef372fe94f82b,
    0xa54ff53a5f1d36f1, 0x510e527fade682d1, 0x9b05688c2b3e6c1f,
    0x1f83d9abfb41bd6b, 0x5be0cd19137e2179⟩ message

@[simp] theorem length_sha224 (message : List UInt8) : (sha224 message).length = 28 := by
  simp [sha224, length_digest, width32]

@[simp] theorem length_sha256 (message : List UInt8) : (sha256 message).length = 32 := by
  simp [sha256, length_digest, width32]

@[simp] theorem length_sha384 (message : List UInt8) : (sha384 message).length = 48 := by
  simp [sha384, length_digest, width64]

@[simp] theorem length_sha512 (message : List UInt8) : (sha512 message).length = 64 := by
  simp [sha512, length_digest, width64]

end BillOfMaterials.Digest.Sha2
