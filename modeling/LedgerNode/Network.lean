import LedgerNode.BlockLog
import LedgerNode.Peer.Call

/-!
The network as a node meets it: who answers at which address, and what.
-/
namespace LedgerNode

/-- Why a peer has no answer. -/
inductive PeerFault where
  | unreachable
  | status (code : Nat)
  deriving DecidableEq, Repr

def PeerFault.ofPeer (a : PeerAddress) : PeerFault → PeerError
  | unreachable => .unreachable a
  | status code => .status a code

/-- How a peer behaves; of two peers the one with the smaller `delay` answers first. -/
structure Neighbour where
  report : Except PeerFault PeerReport
  recordsAfter : Digest → Except PeerFault (List Record)
  delay : Nat
  /-- While it is asked for blocks, searches that were held back get to run. -/
  freesSearches : Bool

abbrev Network := SortedMap PeerAddress Neighbour

namespace Neighbour

def tipOf (rs : List Record) : Digest := (rs.getLast?.map (·.digest)).getD .zero

def heightOf (rs : List Record) : UInt64 := (rs.getLast?.map (·.block.header.height)).getD 0

/-- A peer that holds these records and knows these nodes. -/
def ofRecords (rs : List Record) (known : Peers) : Neighbour where
  report := .ok ⟨tipOf rs, heightOf rs, known⟩
  recordsAfter start := .ok (Record.after start rs)
  delay := 0
  freesSearches := false

end Neighbour

namespace Network

/-- Asks whoever is at an address for a status. -/
def report (net : Network) (a : PeerAddress) : Except PeerError PeerReport :=
  match net.get? a with
  | none => .error (.unreachable a)
  | some p => p.report.mapError (·.ofPeer a)

/-- Asks whoever is at an address for the records behind a digest. -/
def recordsAfter (net : Network) (a : PeerAddress) (start : Digest) :
    Except PeerError (List Record) :=
  match net.get? a with
  | none => .error (.unreachable a)
  | some p => (p.recordsAfter start).mapError (·.ofPeer a)

def delay (net : Network) (a : PeerAddress) : Nat := ((net.get? a).map (·.delay)).getD 0

def freesSearches (net : Network) (a : PeerAddress) : Bool :=
  ((net.get? a).map (·.freesSearches)).getD false

/-- How many nodes the peers mention. -/
def mentions (net : Network) : Nat :=
  net.values.foldl (fun n p => match p.report with
    | .ok r => n + r.known.size
    | .error _ => n) 0

end Network
end LedgerNode
