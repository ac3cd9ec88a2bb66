import LedgerNode.Ledger
import LedgerNode.Pool
import LedgerNode.Registry

/-!
A node: its ledger, the pool of transactions that wait for a block, and the file that lists the
nodes it knows.
-/
namespace LedgerNode

structure Node (L : Type) where
  ledger : Ledger L
  pool : Pool
  registry : FileEntry
  deriving DecidableEq

end LedgerNode
