import TokenCustody.Curve.Secp256k1
import TokenCustody.Hash.Word
import TokenCustody.EthAddress

/-!
# Key recovery

A signature `(r, s)` over a digest `z`, with the parity of the point that `r` comes from, determines
the public key `(s R - z G) / r`. `Signature.recover?` reads a signature of 65 bytes and answers the
address of that key.

Both halves of the range of `s` are accepted. The point `R` has `r` itself as its first coordinate,
never `r` plus the order of the group.
-/

namespace TokenCustody

namespace Signature

open Secp256k1

/-- The uncompressed public key recovered from a signature, if there is one. -/
def recoverKey? (digest : Word) (r s : Nat) (odd : Bool) : Option Bytes := do
  guard (0 < r ∧ r < groupOrder ∧ 0 < s ∧ s < groupOrder)
  let point ← Point.lift? (coordinate r) odd
  let inverted := multiplier (inverse groupOrder r)
  let ofGenerator := -(multiplier digest.toNat * inverted)
  let ofPoint := multiplier s * inverted
  let (x, y) ← (Point.combine ofGenerator .generator ofPoint point).affine?
  return 0x04 :: (Bytes.bigEndian 32 x.val ++ Bytes.bigEndian 32 y.val)

/-- The parity that the last byte of a signature gives: the bare numbers 0 and 1, or the same with
the customary 27 added. -/
def parity? (b : UInt8) : Option Bool :=
  if b = 0 ∨ b = 27 then some false
  else if b = 1 ∨ b = 28 then some true
  else none

/-- The address whose key made a signature `r ‖ s ‖ v` over a digest. -/
def recover? (digest : Word) (signature : Bytes) : Option EthAddress := do
  let (r, rest) := signature.splitAt 32
  match rest.splitAt 32 with
  | (s, [v]) =>
    let key ← recoverKey? digest (Bytes.toNat r) (Bytes.toNat s) (← parity? v)
    EthAddress.ofPublicKey? key
  | _ => none

end Signature

end TokenCustody
