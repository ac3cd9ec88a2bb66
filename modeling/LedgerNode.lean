import LedgerNode.Api
import LedgerNode.Json.Keyed
import LedgerNode.Ledger.Session
import LedgerNode.Main
import LedgerNode.Running
import LedgerNode.Proofs.Ledger.Chain
import LedgerNode.Proofs.Ledger.Linearizability
import LedgerNode.Proofs.Ledger.Restart
import LedgerNode.Proofs.Reordering
import LedgerNode.Proofs.Ledger.Reload
import LedgerNode.Proofs.Registry
import LedgerNode.Proofs.Pool
import LedgerNode.Proofs.Sync
import LedgerNode.Proofs.Node.Interleaving
import LedgerNode.Proofs.Node.MinedOnce
import LedgerNode.Proofs.Ledger.Atomicity
import LedgerNode.Proofs.Ledger.CatchUp
import LedgerNode.Proofs.Ledger.Equivalence
import LedgerNode.Proofs.Node.Notices
import LedgerNode.Proofs.Pool.Run
import LedgerNode.Proofs.Ledger.Sealing
import LedgerNode.Proofs.Discovery
import LedgerNode.Proofs.Node.Accounting
import LedgerNode.Proofs.Ledger.Repetition
import LedgerNode.Proofs.Ledger.Height
import LedgerNode.Proofs.Node.Following
import LedgerNode.Proofs.Wire
import LedgerNode.Proofs.Ledger.Continuation
import LedgerNode.Proofs.Registry.Torn
import LedgerNode.Proofs.Node.Eviction
import LedgerNode.Proofs.Ledger.Order
import LedgerNode.Proofs.Ledger.Streaming
import LedgerNode.Proofs.Text.Order
import LedgerNode.Proofs.Wire.Listing
import LedgerNode.Proofs.Ledger.Prefix
import LedgerNode.Proofs.Node.Forwarding
import LedgerNode.Proofs.Node.Takeover
import LedgerNode.Proofs.Sync.Target
import LedgerNode.Proofs.ProofOfWork
import LedgerNode.Proofs.Submission
import LedgerNode.Proofs.Digest
