import LedgerNode.Digest
import LedgerNode.SortedMap

/-!
Other nodes of the network: where they are reached, what is known of them, and what they report
about themselves.
-/
namespace LedgerNode

structure PeerAddress where
  ip : String
  port : UInt16
  deriving DecidableEq

namespace PeerAddress

instance : ToString PeerAddress := ⟨fun a => a.ip ++ ":" ++ toString a.port⟩

def key (a : PeerAddress) : String × UInt16 := (a.ip, a.port)

/-- By the text of the host first, then by the port. -/
instance : Ord PeerAddress := ⟨fun a b => (compare a.ip b.ip).then (compare a.port b.port)⟩

theorem compare_eq (a b : PeerAddress) :
    compare a b = (compare a.ip b.ip).then (compare a.port b.port) := rfl

instance : Std.TransOrd PeerAddress :=
  inferInstanceAs (Std.TransCmp (compareLex (compareOn PeerAddress.ip) (compareOn PeerAddress.port)))

instance : Std.LawfulEqOrd PeerAddress where
  eq_of_compare {a b} h := by
    rw [compare_eq, Ordering.then_eq_eq] at h
    have hi : a.ip = b.ip := Std.LawfulEqOrd.eq_of_compare h.1
    have hp : a.port = b.port := Std.LawfulEqOrd.eq_of_compare h.2
    cases a; cases b; simp_all

end PeerAddress

structure PeerInfo where
  name : String
  isBootstrap : Bool
  isActive : Bool
  deriving DecidableEq

/-- Peers by their addresses. -/
abbrev Peers := SortedMap PeerAddress PeerInfo

/-- What a node reports about itself. -/
structure PeerReport where
  tip : Digest
  height : UInt64
  known : Peers
  deriving DecidableEq

end LedgerNode
