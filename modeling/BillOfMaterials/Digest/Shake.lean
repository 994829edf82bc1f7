import BillOfMaterials.Digest.Bytes

/-! # SHAKE

    Digests of any wanted length, by a sponge over the permutation of 1600
    bits.  A message is mixed into the first `rate` bytes of the state block by
    block; the output is read from there, with a permutation between blocks.

    * `permute` is the permutation on 25 lanes of 64 bits.
    * `absorb` mixes a padded message in, `squeeze` reads output.
    * `shake128` and `shake256` differ in their rate alone. -/

namespace BillOfMaterials.Digest.Shake

/-! ## The permutation -/

/-- The state: lane `x + 5 * y` stands in column `x` and row `y`. -/
abbrev State := Vector UInt64 25

/-- What each round adds to the first lane. -/
def roundConstants : List UInt64 := [
    0x0000000000000001, 0x0000000000008082, 0x800000000000808a, 0x8000000080008000,
    0x000000000000808b, 0x0000000080000001, 0x8000000080008081, 0x8000000000008009,
    0x000000000000008a, 0x0000000000000088, 0x0000000080008009, 0x000000008000000a,
    0x000000008000808b, 0x800000000000008b, 0x8000000000008089, 0x8000000000008003,
    0x8000000000008002, 0x8000000000000080, 0x000000000000800a, 0x800000008000000a,
    0x8000000080008081, 0x8000000000008080, 0x0000000080000001, 0x8000000080008008]

/-- How far each lane is rotated. -/
def offsets : List UInt64 := [
    0, 1, 62, 28, 27, 36, 44, 6, 55, 20, 3, 10, 43,
    25, 39, 41, 45, 15, 21, 8, 18, 2, 61, 56, 14]

def rotateLeft (x k : UInt64) : UInt64 := if k = 0 then x else (x <<< k) ||| (x >>> (64 - k))

/-- The lane in a column and a row, both counted around. -/
def lane (s : State) (x y : Nat) : UInt64 :=
  s.get ⟨x % 5 + 5 * (y % 5), by omega⟩

/-- Adds to each lane the parities of two neighbouring columns. -/
def mixColumns (s : State) : State :=
  let parity := Vector.ofFn fun x : Fin 5 =>
    lane s x 0 ^^^ lane s x 1 ^^^ lane s x 2 ^^^ lane s x 3 ^^^ lane s x 4
  Vector.ofFn fun i : Fin 25 =>
    s[i] ^^^ parity[(i.val + 4) % 5] ^^^ rotateLeft parity[(i.val + 1) % 5] 1

/-- Rotates every lane and moves it to its new place. -/
def moveLanes (s : State) : State :=
  let rotated := Vector.ofFn fun i : Fin 25 => rotateLeft s[i] (offsets.getD i 0)
  Vector.ofFn fun i : Fin 25 => lane rotated (i.val % 5 + 3 * (i.val / 5)) (i.val % 5)

/-- Combines each lane with its two right neighbours. -/
def mixRows (s : State) : State :=
  Vector.ofFn fun i : Fin 25 =>
    s[i] ^^^ (~~~lane s (i.val + 1) (i.val / 5) &&& lane s (i.val + 2) (i.val / 5))

def round (s : State) (constant : UInt64) : State :=
  let mixed := mixRows (moveLanes (mixColumns s))
  mixed.set 0 (mixed[0] ^^^ constant)

def permute (s : State) : State := roundConstants.foldl round s

/-! ## The sponge -/

/-- A lane's bytes, the lowest first. -/
def laneBytes (x : UInt64) : List UInt8 := (bigEndian 8 x.toNat).reverse

/-- The state's bytes. -/
def State.bytes (s : State) : List UInt8 := s.toList.flatMap laneBytes

@[simp] theorem length_bytes (s : State) : (State.bytes s).length = 200 := by
  simp [State.bytes, laneBytes, List.length_flatMap, List.map_const']

/-- Completes a message to whole blocks of `rate` bytes; the added bits also
    mark the kind of digest. -/
def pad (rate : Nat) (message : List UInt8) : List UInt8 :=
  let free := rate - message.length % rate
  if free = 1 then message ++ [0x9f]
  else message ++ 0x1f :: List.replicate (free - 2) 0 ++ [0x80]

/-- Mixes one block into the state and permutes it. -/
def absorbBlock (s : State) (block : List UInt8) : State :=
  let lanes := (blocks 8 block).map fun bytes => UInt64.ofNat (ofBigEndian bytes.reverse)
  permute (Vector.ofFn fun i : Fin 25 => s[i] ^^^ lanes.getD i 0)

def absorb (rate : Nat) (message : List UInt8) : State :=
  (blocks rate (pad rate message)).foldl absorbBlock (Vector.replicate 25 0)

/-- Reads `count` bytes of output. -/
def squeeze (rate : Nat) (s : State) (count : Nat) : List UInt8 :=
  if 0 < rate ∧ rate < count then
    (State.bytes s).take rate ++ squeeze rate (permute s) (count - rate)
  else (State.bytes s).take count
  termination_by count

theorem length_squeeze {rate : Nat} (positive : 0 < rate) (within : rate ≤ 200) (s : State)
    (count : Nat) : (squeeze rate s count).length = count := by
  fun_induction squeeze rate s count with
  | case1 s count more ih => simp [ih]; omega
  | case2 s count last => simp; omega

/-! ## The members -/

def shake128 (count : Nat) (message : List UInt8) : List UInt8 :=
  squeeze 168 (absorb 168 message) count

def shake256 (count : Nat) (message : List UInt8) : List UInt8 :=
  squeeze 136 (absorb 136 message) count

@[simp] theorem length_shake128 (count : Nat) (message : List UInt8) :
    (shake128 count message).length = count :=
  length_squeeze (by decide) (by decide) _ _

@[simp] theorem length_shake256 (count : Nat) (message : List UInt8) :
    (shake256 count message).length = count :=
  length_squeeze (by decide) (by decide) _ _

end BillOfMaterials.Digest.Shake
