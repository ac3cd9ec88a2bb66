import LedgerNode.CommandLine
import LedgerNode.Peer
import LedgerNode.ProofOfWork

/-!
The configuration of a node: what its command line says, checked.
-/
namespace LedgerNode

inductive ConfigError where
  | miner (cause : AccountError)
  | complexity (cause : MiningError)
  /-- A number that must not be zero is; `what` names it. -/
  | zero (what : String)
  deriving DecidableEq

def ConfigError.message : ConfigError → String
  | miner cause => "invalid miner address: " ++ cause.message
  | complexity cause => cause.message
  | zero what => what ++ " must be greater than zero"

structure Config where
  genesisPath : String
  blocksPath : String
  nodesPath : String
  miner : Account
  bindAddress : String
  /-- Where peers reach the node. -/
  publicAddress : PeerAddress
  pow : ProofOfWork
  syncInterval : Nat
  mineInterval : Nat
  poolCapacity : Nat
  peerTimeout : Nat
  deriving DecidableEq

namespace Config

def positive (what : String) (n : Nat) : Except ConfigError Nat :=
  if n = 0 then .error (.zero what) else .ok n

/-- Checks what a command line says; the first fault in this order is reported. -/
def ofArguments (a : CommandLine.Arguments) : Except ConfigError Config := do
  let miner ← (Account.ofText a.miner).mapError .miner
  let pow ← (ProofOfWork.ofComplexity a.complexity).mapError .complexity
  let syncInterval ← positive "sync interval" a.syncInterval
  let mineInterval ← positive "mine interval" a.mineInterval
  let peerTimeout ← positive "peer timeout" a.peerTimeout
  let poolCapacity ← positive "pool capacity" a.poolCapacity
  return {
    genesisPath := a.genesisPath
    blocksPath := a.blocksPath
    nodesPath := a.nodesPath
    miner
    bindAddress := a.address ++ ":" ++ toString a.port
    publicAddress := ⟨a.publicIp.getD a.address, a.port⟩
    pow, syncInterval, mineInterval, poolCapacity, peerTimeout }

theorem positive_eq_ok_iff (what : String) (n m : Nat) :
    positive what n = .ok m ↔ n ≠ 0 ∧ m = n := by
  unfold positive
  split <;> simp_all [eq_comm]

end Config
end LedgerNode
