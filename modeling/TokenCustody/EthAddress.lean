import TokenCustody.Text.Hex
import TokenCustody.Hash.Keccak

/-!
# Ethereum addresses

An address is twenty bytes, the end of the hash of a public key. Its text is forty hexadecimal
digits of either case, with or without a mark in front, and is written with the mark and in lower
case. The zero address belongs to nobody and is refused.
-/

namespace TokenCustody

/-- An Ethereum address. -/
abbrev EthAddress := Vector UInt8 20

namespace EthAddress

/-- The address of all zeros. -/
def zero : EthAddress := Vector.replicate 20 0

/-- The text of an address. -/
def text (a : EthAddress) : String :=
  Hex.marked a.toList

/-- Why a text is not the address of a signer. -/
inductive TextFault where
  /-- There are not forty bytes of digits. -/
  | length
  /-- A character is no hexadecimal digit. -/
  | digit
  /-- All digits are zero. -/
  | zero
  deriving DecidableEq

/-- The message for a text that is not the address of a signer. -/
def TextFault.message : TextFault → String
  | .length => "Invalid address length: expected 40 hex characters"
  | .digit => "Invalid hex character"
  | .zero => "Zero address is not a valid signer"

/-- A text without one leading hexadecimal mark. -/
def unmarked : List Char → List Char
  | '0' :: 'x' :: r => r
  | '0' :: 'X' :: r => r
  | s => s

/-- The address that a text denotes. The length is counted in bytes and is looked at first. -/
def parse (s : String) : Except TextFault EthAddress :=
  let digits := unmarked s.toList
  if (String.ofList digits).utf8ByteSize ≠ 40 then
    .error .length
  else
    match (Hex.ofDigits? digits).bind (Bytes.toVector? 20) with
    | none => .error .digit
    | some a => if a = zero then .error .zero else .ok a

/-- The address of an uncompressed public key: the byte `04` and two coordinates of 32 bytes. -/
def ofPublicKey? : Bytes → Option EthAddress
  | 0x04 :: coordinates =>
    if coordinates.length = 64 then
      Bytes.toVector? 20 ((keccak256 coordinates).toList.drop 12)
    else none
  | _ => none

end EthAddress

end TokenCustody
