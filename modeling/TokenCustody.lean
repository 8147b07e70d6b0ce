import TokenCustody.Bridge.Query
import TokenCustody.Bridge.Run
import TokenCustody.Bridge.Snapshot
import TokenCustody.Ledger.Step
import TokenCustody.Proofs.Acceptance
import TokenCustody.Proofs.Authority
import TokenCustody.Proofs.Blindness
import TokenCustody.Proofs.Charges
import TokenCustody.Proofs.Commuting
import TokenCustody.Proofs.Custody
import TokenCustody.Proofs.Digests
import TokenCustody.Proofs.Documents
import TokenCustody.Proofs.Footprint
import TokenCustody.Proofs.Forecast
import TokenCustody.Proofs.Funding
import TokenCustody.Proofs.HexText
import TokenCustody.Proofs.Interleaving
import TokenCustody.Proofs.Isolation
import TokenCustody.Proofs.Journal
import TokenCustody.Proofs.Orders
import TokenCustody.Proofs.Ownership
import TokenCustody.Proofs.Pausing
import TokenCustody.Proofs.Safety
import TokenCustody.Proofs.SignedDigest
import TokenCustody.Proofs.SingleUse
import TokenCustody.Proofs.Spending
import TokenCustody.Proofs.TrustedSigner
import TokenCustody.Proofs.Splitting
import TokenCustody.Proofs.AddressText
import TokenCustody.Proofs.PausedRequests
import TokenCustody.Proofs.PoolEntries
import TokenCustody.Proofs.TypedStores
