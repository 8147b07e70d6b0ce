import TokenCustody.Bytes

/-!
# Keccak

The Keccak-f[1600] permutation on twenty-five lanes of 64 bits, and the 256-bit hash built on it
with a rate of 136 bytes. The message is padded with a single `01` byte (the padding that Ethereum
uses, not the one of the later SHA-3 standard), zeros, and a set top bit in the last byte of the
block.

Lane `(x, y)` of the state stands at index `x + 5 * y`.
-/

namespace TokenCustody

/-- A word of 32 bytes: a hash, or a number written with 32 digits of base 256. -/
abbrev Word := Vector UInt8 32

namespace Keccak

/-- The state of the permutation. -/
abbrev State := Vector UInt64 25

/-- The constants that the last step of each round adds to the first lane. -/
def roundConstants : List UInt64 :=
  [0x0000000000000001, 0x0000000000008082, 0x800000000000808A, 0x8000000080008000,
   0x000000000000808B, 0x0000000080000001, 0x8000000080008081, 0x8000000000008009,
   0x000000000000008A, 0x0000000000000088, 0x0000000080008009, 0x000000008000000A,
   0x000000008000808B, 0x800000000000008B, 0x8000000000008089, 0x8000000000008003,
   0x8000000000008002, 0x8000000000000080, 0x000000000000800A, 0x800000008000000A,
   0x8000000080008081, 0x8000000000008080, 0x0000000080000001, 0x8000000080008008]

/-- The distance by which each lane is rotated. -/
def rotations : Vector UInt64 25 :=
  #v[0, 1, 62, 28, 27,
     36, 44, 6, 55, 20,
     3, 10, 43, 25, 39,
     41, 45, 15, 21, 8,
     18, 2, 61, 56, 14]

/-- A lane rotated towards its most significant bit. The shift to the right is taken modulo 64, so
that a rotation by zero leaves the lane as it is. -/
def rotate (lane distance : UInt64) : UInt64 :=
  lane <<< distance ||| lane >>> (64 - distance)

/-- The sum of the five lanes of column `x`. -/
def columnParity (a : State) (x : Fin 5) : UInt64 :=
  a[x.val] ^^^ a[x.val + 5] ^^^ a[x.val + 10] ^^^ a[x.val + 15] ^^^ a[x.val + 20]

/-- The step θ: each lane takes up the parities of two neighbouring columns. -/
def mixColumns (a : State) : State :=
  let parity : Vector UInt64 5 := Vector.ofFn (columnParity a)
  let change : Vector UInt64 5 := Vector.ofFn fun x =>
    parity[(x.val + 4) % 5] ^^^ rotate parity[(x.val + 1) % 5] 1
  Vector.ofFn fun i => a[i] ^^^ change[i.val % 5]

/-- The steps ρ and π: each lane is rotated and moved to another place. -/
def scatter (a : State) : State :=
  Vector.ofFn fun i =>
    let source := (i.val % 5 + 3 * (i.val / 5)) % 5 + 5 * (i.val % 5)
    rotate a[source] rotations[source]

/-- The step χ: each lane is combined with the next two of its row. -/
def mixRows (a : State) : State :=
  Vector.ofFn fun i =>
    let row := 5 * (i.val / 5)
    a[i] ^^^ (~~~a[row + (i.val + 1) % 5] &&& a[row + (i.val + 2) % 5])

/-- One round of the permutation, with the constant that belongs to it. -/
def round (a : State) (constant : UInt64) : State :=
  let b := mixRows (scatter (mixColumns a))
  b.set 0 (b[0] ^^^ constant)

/-- The permutation: all rounds in order. -/
def permute (a : State) : State :=
  roundConstants.foldl round a

/-- The number of message bytes that one application of the permutation takes in. -/
def rate : Nat := 136

/-- The bytes that complete a message of length `n` to a whole number of blocks. -/
def padding (n : Nat) : Bytes :=
  match rate - 1 - n % rate with
  | 0 => [0x81]
  | zeros + 1 => 0x01 :: List.replicate zeros 0 ++ [0x80]

/-- The number whose digits in base 256 are the first eight bytes, the least significant first. -/
def lane (b : Bytes) : UInt64 :=
  (b.take 8).foldr (fun x n => n <<< 8 ||| x.toUInt64) 0

/-- The state after one block of `rate` bytes. -/
def absorbBlock (a : State) (block : Bytes) : State :=
  permute (Vector.ofFn fun i =>
    if i.val < rate / 8 then a[i] ^^^ lane (block.drop (8 * i.val)) else a[i])

/-- The state after the first `count` blocks of a padded message. -/
def absorb : (count : Nat) → State → Bytes → State
  | 0, a, _ => a
  | count + 1, a, b => absorb count (absorbBlock a (b.take rate)) (b.drop rate)

/-- The first 32 bytes of a state. -/
def squeeze (a : State) : Word :=
  Vector.ofFn fun i => (a[i.val / 8] >>> (8 * (i.val % 8).toUInt64)).toUInt8

end Keccak

/-- The 256-bit Keccak hash of a byte string. -/
def keccak256 (message : Bytes) : Word :=
  let padded := message ++ Keccak.padding message.length
  Keccak.squeeze (Keccak.absorb (padded.length / Keccak.rate) (Vector.replicate 25 0) padded)

end TokenCustody
