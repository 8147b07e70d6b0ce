import TokenCustody.Amount
import TokenCustody.EthAddress

/-!
# Configuration

What the bridge is set to. The signer is kept as a byte string, as it is stored;
`Config.signerAddress?` is the address that it stands for.
-/

namespace TokenCustody

/-- The settings of the bridge. -/
structure Config where
  /-- The account that may do everything reserved to the owner. -/
  owner : String
  /-- The address of the key that signs authorizations. -/
  signer : Bytes
  /-- The stable part of the commission, in hundredths of a percent. -/
  stablePercent : UInt64
  /-- Whether deposits and signed releases are refused. -/
  paused : Bool
  deriving DecidableEq

namespace Config

/-- The address of the trusted signer, if it has the right length. -/
def signerAddress? (c : Config) : Option EthAddress :=
  Bytes.toVector? 20 c.signer

end Config

/-- The name and version that a contract goes by. -/
structure Version where
  contract : String
  version : String
  deriving DecidableEq

namespace Version

/-- The version of this contract. -/
def current : Version := ⟨"crates.io:custody-bridge", "1.0.0"⟩

end Version

end TokenCustody
