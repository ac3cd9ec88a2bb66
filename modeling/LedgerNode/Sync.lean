import LedgerNode.Discovery
import LedgerNode.Mining

/-!
Synchronization: a node asks around, remembers the nodes it hears of, and takes over the blocks of the
tallest peer that is ahead of it, as far as they are valid.
-/
namespace LedgerNode

inductive SyncError where
  | registry (cause : RegistryError)
  | peer (cause : PeerError)
  /-- No error that anybody is told of: there is no height for a block, and the round panics. -/
  | heightOverflow
  deriving DecidableEq

/-- What one round of synchronization did. -/
structure SyncReport where
  queried : Nat
  discovered : Nat
  applied : Nat
  source : Option PeerAddress
  deriving DecidableEq

namespace SyncReport

def zero : SyncReport := ⟨0, 0, 0, none⟩

/-- What a round comes to with blocks from a peer: a report of how many were added, unless one of them
made it panic. -/
def taking (report : SyncReport) (a : PeerAddress) :
    Except BatchError Nat → Except SyncError SyncReport
  | .error ⟨_, .heightOverflow⟩ => .error .heightOverflow
  | taken => .ok { report with applied := addedCount taken, source := some a }

end SyncReport

namespace Sync

/-- A greater height is better; of equal ones, the smaller address. -/
def isBetter (a b : PeerAddress × UInt64) : Bool :=
  (compare a.2 b.2).then (compare b.1 a.1) == .gt

def better (best : Option (PeerAddress × UInt64)) (e : PeerAddress × UInt64) :
    Option (PeerAddress × UInt64) :=
  match best with
  | none => some e
  | some b => if isBetter b e then some b else some e

/-- The peer to take blocks from, if any is ahead of a height. -/
def target? (height : UInt64) (heights : List (PeerAddress × UInt64)) :
    Option (PeerAddress × UInt64) :=
  (heights.filter fun e => height < e.2).foldl better none

end Sync

/-- What happens in one round: its result, the blocks it committed, who was asked, and the node. -/
structure SyncRound (L : Type) where
  result : Except SyncError SyncReport
  committed : List Block
  asked : List (PeerAddress × PeerCall)
  node : Node L

/-- The blocks that the mining loop is told of.  A round that panics does not come to it. -/
def SyncRound.notices {L : Type} (round : SyncRound L) : List Block :=
  match round.result with
  | .ok _ => round.committed
  | .error _ => []

/-- Who a node is among its peers, and how long its registry file may grow. -/
structure SyncSettings where
  self : Option PeerAddress
  registryLimit : SizeLimit
  deriving DecidableEq

namespace Node

variable {L : Type} [BlockLog L]

/-- Takes over blocks in order up to the first that is refused, and counts them.  The transactions of
all of them leave the pool first. -/
def adopt (n : Node L) (bs : List Block) : Except BatchError Nat × Node L :=
  let n := n.forget (bs.flatMap (·.transactionIds))
  let (taken, ledger) := n.ledger.addBlocks bs
  (taken, { n with ledger })

/-- Files the nodes that were found, if there are any; it does not matter if that fails. -/
def remember (n : Node L) (limit : SizeLimit) (found : Peers) : Node L :=
  if found.isEmpty then n
  else { n with registry := (Registry.merge limit found.entries n.registry).2 }

/-- Fetches the blocks behind the tip from a peer and takes them over. -/
def fetch (n : Node L) (net : Network) (report : SyncReport) (asked : List (PeerAddress × PeerCall))
    (a : PeerAddress) : SyncRound L :=
  let tip := n.ledger.snapshot.tip
  let asked := asked ++ [(a, .blocksAfter tip)]
  match net.recordsAfter a tip with
  | .error e => ⟨.error (.peer e), [], asked, n⟩
  | .ok records =>
    let bs := records.map (·.block)
    let (taken, n) := n.adopt bs
    ⟨report.taking a taken, bs.take (addedCount taken), asked, n⟩

/-- One round of synchronization. -/
def sync (n : Node L) (settings : SyncSettings) (net : Network) : SyncRound L :=
  match Registry.list n.registry with
  | .error e => ⟨.error (.registry e), [], [], n⟩
  | .ok listed =>
    let known := match settings.self with
      | some a => listed.erase a
      | none => listed
    if known.isEmpty then ⟨.ok .zero, [], [], n⟩
    else
      let d := Discovery.explore net settings.self known
      let report : SyncReport := ⟨d.heights.size, d.found.size, 0, none⟩
      let asked := d.asked.reverse.map fun a => (a, PeerCall.status)
      let n := n.remember settings.registryLimit d.found
      match Sync.target? n.ledger.snapshot.height d.heights.entries with
      | none => ⟨.ok report, [], asked, n⟩
      | some (a, _) => n.fetch net report asked a

end Node
end LedgerNode
