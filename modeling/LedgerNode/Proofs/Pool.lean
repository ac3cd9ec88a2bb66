import LedgerNode.Mining

/-!
What leaves the pool and what enters it.  In a keyed pool every transaction stands under its own
identity; only submissions bring in new ones.
-/
namespace LedgerNode

namespace Pool

@[simp] theorem announced_remove (p : Pool) (id : TransactionId) :
    (p.remove id).2.announced = p.announced := rfl

@[simp] theorem get?_remove (p : Pool) (id id' : TransactionId) :
    (p.remove id).2.pending.get? id' = if id' = id then none else p.pending.get? id' :=
  p.pending.get?_erase id id'

@[simp] theorem announced_removeAll (p : Pool) (ids : List TransactionId) :
    (p.removeAll ids).2.announced = p.announced := by
  induction ids generalizing p with
  | nil => rfl
  | cons id ids ih => simp [removeAll, ih]

/-- Exactly the transactions of the list leave. -/
@[simp] theorem get?_removeAll (p : Pool) (ids : List TransactionId) (id : TransactionId) :
    (p.removeAll ids).2.pending.get? id = if id ∈ ids then none else p.pending.get? id := by
  induction ids generalizing p with
  | nil => simp [removeAll]
  | cons i ids ih =>
    by_cases hid : id = i
    · subst hid
      simp [removeAll, ih]
    · simp [removeAll, ih, hid]

theorem removeAll_append (p : Pool) (ids jds : List TransactionId) :
    (p.removeAll (ids ++ jds)).2 = ((p.removeAll ids).2.removeAll jds).2 := by
  induction ids generalizing p with
  | nil => rfl
  | cons id ids ih => simpa [removeAll] using ih _

/-- Every transaction stands under its own identity. -/
def Keyed (p : Pool) : Prop := ∀ id tx, p.pending.get? id = some tx → id = tx.id

theorem get?_add {p p' : Pool} {tx : Transaction} {id : TransactionId}
    (h : p.add tx = (.ok id, p')) (id' : TransactionId) :
    p'.pending.get? id' = if id' = tx.id then some tx else p.pending.get? id' := by
  unfold add at h
  split at h
  · cases h
  · split at h
    · cases h
    · cases h
      exact p.pending.get?_insert _ _ _

end Pool

namespace Node

variable {L : Type}

@[simp] theorem ledger_forget (n : Node L) (ids : List TransactionId) :
    (n.forget ids).ledger = n.ledger := rfl

theorem forget_nil (n : Node L) : n.forget [] = n := rfl

theorem forget_append (n : Node L) (ids jds : List TransactionId) :
    n.forget (ids ++ jds) = (n.forget ids).forget jds := by
  simp only [forget, Pool.removeAll_append]

/-- What is pooled when some are forgotten was pooled before. -/
theorem pending_of_forget {n : Node L} {ids : List TransactionId} {id : TransactionId}
    {tx : Transaction} (h : (n.forget ids).pool.pending.get? id = some tx) :
    n.pool.pending.get? id = some tx := by
  rw [forget, Pool.get?_removeAll] at h
  split at h
  · cases h
  · exact h

end Node
end LedgerNode
