/-!
Bounded queues between two parties.  A full queue turns the sender away, and so does one whose
receiver is gone; what was waiting in it is gone too.
-/
namespace LedgerNode

structure Queue (α : Type) where
  waiting : List α
  slots : Nat
  isOpen : Bool
  deriving DecidableEq

/-- What a receiver finds in its queue. -/
inductive Received (α : Type) where
  | item (a : α)
  | empty
  | closed
  deriving DecidableEq

namespace Queue

variable {α : Type}

/-- There is always room for one. -/
def ofCapacity (capacity : Nat) : Queue α := ⟨[], max capacity 1, true⟩

def hasRoom (q : Queue α) : Bool := q.isOpen && decide (q.waiting.length < q.slots)

/-- Sends, if there is room. -/
def send? (q : Queue α) (a : α) : Option (Queue α) :=
  if q.hasRoom then some { q with waiting := q.waiting ++ [a] } else none

def receive (q : Queue α) : Received α × Queue α :=
  match q.waiting with
  | a :: rest => (.item a, { q with waiting := rest })
  | [] => (if q.isOpen then .empty else .closed, q)

/-- The receiver leaves. -/
def close (q : Queue α) : Queue α := { q with waiting := [], isOpen := false }

theorem send?_eq_some_iff (q r : Queue α) (a : α) :
    q.send? a = some r ↔ q.hasRoom = true ∧ r = { q with waiting := q.waiting ++ [a] } := by
  unfold send?
  by_cases h : q.hasRoom = true <;> simp [h, eq_comm]

end Queue
end LedgerNode
