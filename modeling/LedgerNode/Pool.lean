import LedgerNode.Queue
import LedgerNode.SortedMap
import LedgerNode.Transaction

/-!
The pool of unconfirmed transactions, by their identities.  Every transaction that the pool takes is
also announced on a bounded queue; where that has no room the pool takes none.
-/
namespace LedgerNode

inductive PoolError where
  | alreadyPooled (id : TransactionId)
  | unavailable
  deriving DecidableEq

def PoolError.message : PoolError → String
  | .alreadyPooled id => "transaction " ++ id.toHex ++ " already in pool"
  | .unavailable => "pool is not accepting transactions right now"

structure Pool where
  pending : SortedMap TransactionId Transaction
  announced : Queue Transaction
  deriving DecidableEq

namespace Pool

def ofCapacity (capacity : Nat) : Pool := ⟨.empty, .ofCapacity capacity⟩

def size (p : Pool) : Nat := p.pending.size
def isEmpty (p : Pool) : Bool := p.pending.isEmpty
def contains (p : Pool) (id : TransactionId) : Bool := p.pending.contains id

def add (p : Pool) (tx : Transaction) : Except PoolError TransactionId × Pool :=
  if p.contains tx.id then (.error (.alreadyPooled tx.id), p)
  else match p.announced.send? tx with
    | none => (.error .unavailable, p)
    | some queue => (.ok tx.id, ⟨p.pending.insert tx.id tx, queue⟩)

/-- Older transactions come first; among those of one second the identity decides. -/
def isBefore (a b : TransactionId × Transaction) : Bool :=
  (compare a.2.time b.2.time).then (compare a.1 b.1) != .gt

/-- The pooled transactions, oldest first. -/
def oldestFirst (p : Pool) : List (TransactionId × Transaction) := p.pending.entries.mergeSort isBefore

def remove (p : Pool) (id : TransactionId) : Option Transaction × Pool :=
  (p.pending.get? id, { p with pending := p.pending.erase id })

/-- Removes the transactions of a list of identities, and counts those that were there. -/
def removeAll (p : Pool) : List TransactionId → Nat × Pool
  | [] => (0, p)
  | id :: rest =>
    let (found, p) := p.remove id
    let (count, p) := p.removeAll rest
    ((if found.isSome then 1 else 0) + count, p)

def receive (p : Pool) : Received Transaction × Pool :=
  let (received, queue) := p.announced.receive
  (received, { p with announced := queue })

def close (p : Pool) : Pool := { p with announced := p.announced.close }

theorem mem_oldestFirst (p : Pool) (e : TransactionId × Transaction) :
    e ∈ p.oldestFirst ↔ p.pending.get? e.1 = some e.2 := by
  rw [oldestFirst, List.mem_mergeSort, p.pending.get?_eq_some_iff]

end Pool
end LedgerNode
