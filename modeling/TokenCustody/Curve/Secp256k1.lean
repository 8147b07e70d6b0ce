/-!
# The curve secp256k1

The curve `y ^ 2 = x ^ 3 + 7` over the field of `Secp256k1.fieldPrime` elements. Points are kept in
projective coordinates and added by formulas that hold for all pairs of points, equal, opposite and
infinite ones included, so that multiples are plain folds over binary digits.
-/

namespace TokenCustody

namespace Secp256k1

/-- The number of elements of the field of coordinates. -/
def fieldPrime : Nat :=
  0xFFFFFFFFFFFFFFFFFFFFFFFFFFFFFFFFFFFFFFFFFFFFFFFFFFFFFFFEFFFFFC2F

/-- The number of points of the curve. -/
def groupOrder : Nat :=
  0xFFFFFFFFFFFFFFFFFFFFFFFFFFFFFFFEBAAEDCE6AF48A03BBFD25E8CD0364141

/-- A coordinate of a point. -/
abbrev Coordinate := Fin fieldPrime

/-- A multiplier of points. -/
abbrev Multiplier := Fin groupOrder

/-- The coordinate that is congruent to a number. -/
def coordinate (n : Nat) : Coordinate :=
  ⟨n % fieldPrime, Nat.mod_lt n (by decide)⟩

/-- The multiplier that is congruent to a number. -/
def multiplier (n : Nat) : Multiplier :=
  ⟨n % groupOrder, Nat.mod_lt n (by decide)⟩

/-- The 256 lowest binary digits of a number, the most significant first. -/
def bits (n : Nat) : List Bool :=
  (List.range 256).reverse.map n.testBit

/-- The residue of a power, for exponents below `2 ^ 256`. -/
def power (modulus base exponent : Nat) : Nat :=
  (bits exponent).foldl (fun a bit => (if bit then a * a * base else a * a) % modulus) 1

/-- The inverse of a residue for a prime modulus; zero for zero. -/
def inverse (modulus base : Nat) : Nat :=
  power modulus base (modulus - 2)

/-- A point in projective coordinates: `(x / z, y / z)`, or the infinite point if `z` is zero. -/
structure Point where
  x : Coordinate
  y : Coordinate
  z : Coordinate

namespace Point

/-- The infinite point. -/
def infinity : Point := ⟨coordinate 0, coordinate 1, coordinate 0⟩

/-- The generator of the group. -/
def generator : Point where
  x := coordinate 0x79BE667EF9DCBBAC55A06295CE870B07029BFCDB2DCE28D959F2815B16F81798
  y := coordinate 0x483ADA7726A3C4655DA4FBFC0E1108A8FD17B448A68554199C47D08FFB10D4B8
  z := coordinate 1

/-- The sum of two points. -/
def add (p q : Point) : Point :=
  let xx := coordinate 3 * (p.x * q.x)
  let yy := p.y * q.y
  let zz := coordinate 21 * (p.z * q.z)
  let xy := p.x * q.y + q.x * p.y
  let yz := p.y * q.z + q.y * p.z
  let xz := coordinate 21 * (p.x * q.z + q.x * p.z)
  let low := yy - zz
  let high := yy + zz
  ⟨xy * low - yz * xz, low * high + xx * xz, high * yz + xx * xy⟩

/-- The sum of the `m`-fold of `p` and the `n`-fold of `q`. -/
def combine (m : Multiplier) (p : Point) (n : Multiplier) (q : Point) : Point :=
  let both := p.add q
  ((bits m.val).zip (bits n.val)).foldl
    (fun a digits =>
      let twice := a.add a
      match digits with
      | (false, false) => twice
      | (true, false) => twice.add p
      | (false, true) => twice.add q
      | (true, true) => twice.add both)
    infinity

/-- The finite point with a given first coordinate whose second coordinate is odd or even, if the
curve has one. -/
def lift? (x : Coordinate) (odd : Bool) : Option Point :=
  let square := x * x * x + coordinate 7
  let root := coordinate (power fieldPrime square.val ((fieldPrime + 1) / 4))
  if root * root = square then
    some ⟨x, if (root.val % 2 == 1) = odd then root else -root, coordinate 1⟩
  else none

/-- The coordinates of a finite point. -/
def affine? (p : Point) : Option (Coordinate × Coordinate) :=
  if p.z = coordinate 0 then none
  else
    let scale := coordinate (inverse fieldPrime p.z.val)
    some (p.x * scale, p.y * scale)

end Point

end Secp256k1

end TokenCustody
