import LedgerNode.Proofs.Snapshot
import LedgerNode.Proofs.SortedMap

/-!
Conservation of value in the balances: a transaction takes from one account what it gives to
another, and only a reward makes the total grow.  All sums are of natural numbers, so nothing wraps
around.
-/
namespace LedgerNode

namespace Balances

theorem amountOf_insert (b : Balances) (a : Account) (v : UInt64) (c : Account) :
    Balances.amountOf (b.insert a v) c = if c = a then v else b.amountOf c := by
  rw [amountOf, SortedMap.get?_insert]
  split <;> rfl

/-- What all accounts have together. -/
def total (b : Balances) : Nat := (b.entries.map fun e => e.2.toNat).sum

theorem total_insert (b : Balances) (a : Account) (v : UInt64) :
    Balances.total (b.insert a v) + (b.amountOf a).toNat = b.total + v.toNat := by
  have hold : ((b.get? a).map UInt64.toNat).getD 0 = (b.amountOf a).toNat := by
    rw [amountOf]
    cases b.get? a <;> rfl
  rw [← hold]
  exact SortedMap.sum_insertEntry UInt64.toNat a v b.sorted

theorem credit_eq_ok {b c : Balances} {a : Account} {value : UInt64}
    (h : b.credit a value = .ok c) :
    ∃ sum, checkedAdd (b.amountOf a) value = some sum ∧ c = b.insert a sum := by
  rw [credit] at h
  cases hsum : checkedAdd (b.amountOf a) value with
  | none => rw [hsum] at h; cases h
  | some sum => rw [hsum] at h; cases h; exact ⟨sum, rfl, rfl⟩

/-- The three ways in which a transaction applies. -/
theorem apply_cases {b c : Balances} {tx : Transaction} (h : b.apply tx = .ok c) :
    (tx.isReward = true ∧ tx.sender = tx.receiver ∧
      ∃ sum, checkedAdd (b.amountOf tx.receiver) tx.value = some sum ∧
        c = b.insert tx.receiver sum) ∨
    (tx.isReward = false ∧ tx.sender = tx.receiver ∧ c = b) ∨
    (tx.isReward = false ∧ tx.sender ≠ tx.receiver ∧ tx.value ≤ b.amountOf tx.sender ∧
      ∃ sum, checkedAdd (b.amountOf tx.receiver) tx.value = some sum ∧
        c = (b.insert tx.sender (b.amountOf tx.sender - tx.value)).insert tx.receiver sum) := by
  rw [apply] at h
  by_cases hreward : tx.isReward = true
  · rw [if_pos hreward] at h
    by_cases hself : tx.sender = tx.receiver
    · rw [if_neg (not_not.mpr hself)] at h
      exact Or.inl ⟨hreward, hself, credit_eq_ok h⟩
    · rw [if_pos hself] at h
      cases h
  · have hfalse : tx.isReward = false := Bool.not_eq_true _ ▸ hreward
    rw [if_neg hreward] at h
    by_cases hamount : b.amountOf tx.sender < tx.value
    · rw [if_pos hamount] at h
      cases h
    · rw [if_neg hamount] at h
      by_cases hself : tx.sender = tx.receiver
      · rw [if_pos hself] at h
        cases h
        exact Or.inr (Or.inl ⟨hfalse, hself, rfl⟩)
      · rw [if_neg hself] at h
        cases hsum : checkedAdd (b.amountOf tx.receiver) tx.value with
        | none => rw [hsum] at h; cases h
        | some sum =>
          rw [hsum] at h
          cases h
          exact Or.inr (Or.inr ⟨hfalse, hself, UInt64.not_lt.mp hamount, sum, rfl, rfl⟩)

end Balances

namespace Transaction

/-- The amount leaves one account for another. -/
def isTransfer (tx : Transaction) : Bool := !tx.isReward && tx.sender != tx.receiver

/-- What an account gains by a transaction: a reward is its sender's, a transfer its receiver's. -/
def creditTo (tx : Transaction) (a : Account) : Nat :=
  if tx.isReward then if tx.sender = a then tx.value.toNat else 0
  else if tx.isTransfer ∧ tx.receiver = a then tx.value.toNat else 0

/-- What an account loses by a transaction. -/
def debitFrom (tx : Transaction) (a : Account) : Nat :=
  if tx.isTransfer ∧ tx.sender = a then tx.value.toNat else 0

/-- What comes into being by a transaction. -/
def minted (tx : Transaction) : Nat := if tx.isReward then tx.value.toNat else 0

def creditsTo (txs : List Transaction) (a : Account) : Nat := (txs.map (·.creditTo a)).sum
def debitsFrom (txs : List Transaction) (a : Account) : Nat := (txs.map (·.debitFrom a)).sum
def mintedBy (txs : List Transaction) : Nat := (txs.map minted).sum

variable (tx : Transaction) (txs us : List Transaction) (a : Account)

@[simp] theorem creditsTo_singleton : creditsTo [tx] a = tx.creditTo a := by simp [creditsTo]
@[simp] theorem debitsFrom_singleton : debitsFrom [tx] a = tx.debitFrom a := by simp [debitsFrom]
@[simp] theorem mintedBy_singleton : mintedBy [tx] = tx.minted := by simp [mintedBy]

@[simp] theorem creditsTo_append : creditsTo (txs ++ us) a = creditsTo txs a + creditsTo us a := by
  simp [creditsTo]

@[simp] theorem debitsFrom_append :
    debitsFrom (txs ++ us) a = debitsFrom txs a + debitsFrom us a := by simp [debitsFrom]

@[simp] theorem mintedBy_append : mintedBy (txs ++ us) = mintedBy txs + mintedBy us := by
  simp [mintedBy]

end Transaction

/-- The transactions account for everything that is different between two balances. -/
structure Balances.Moves (b : Balances) (txs : List Transaction) (c : Balances) : Prop where
  account (a : Account) :
    (c.amountOf a).toNat + Transaction.debitsFrom txs a =
      (b.amountOf a).toNat + Transaction.creditsTo txs a
  total : c.total = b.total + Transaction.mintedBy txs

namespace Balances

theorem Moves.refl (b : Balances) : b.Moves [] b := ⟨fun _ => rfl, rfl⟩

theorem Moves.trans {b c d : Balances} {txs us : List Transaction} (h : b.Moves txs c)
    (h' : c.Moves us d) : b.Moves (txs ++ us) d := by
  constructor
  · intro a
    have h₁ := h.account a
    have h₂ := h'.account a
    rw [Transaction.debitsFrom_append, Transaction.creditsTo_append]
    omega
  · rw [h'.total, h.total, Transaction.mintedBy_append, Nat.add_assoc]

theorem moves_reward {b : Balances} {tx : Transaction} {sum : UInt64} (hreward : tx.isReward = true)
    (hself : tx.sender = tx.receiver)
    (hsum : checkedAdd (b.amountOf tx.receiver) tx.value = some sum) :
    b.Moves [tx] (b.insert tx.receiver sum) := by
  have hvalue := toNat_of_checkedAdd hsum
  constructor
  · intro a
    have hdebit : tx.debitFrom a = 0 := by
      simp [Transaction.debitFrom, Transaction.isTransfer, hreward]
    rw [Transaction.debitsFrom_singleton, Transaction.creditsTo_singleton, hdebit, amountOf_insert]
    by_cases ha : a = tx.receiver
    · simp [Transaction.creditTo, hreward, hself, ha, hvalue]
    · simp [Transaction.creditTo, hreward, hself, ha, Ne.symm ha]
  · have htotal := b.total_insert tx.receiver sum
    have hminted : tx.minted = tx.value.toNat := by simp [Transaction.minted, hreward]
    rw [Transaction.mintedBy_singleton, hminted]
    omega

theorem moves_self {b : Balances} {tx : Transaction} (hreward : tx.isReward = false)
    (hself : tx.sender = tx.receiver) : b.Moves [tx] b := by
  constructor
  · intro a
    simp [Transaction.debitFrom, Transaction.creditTo, Transaction.isTransfer, hreward, hself]
  · simp [Transaction.minted, hreward]

/-- Two entries are replaced, one after the other; they are different ones. -/
theorem moves_transfer {b : Balances} {tx : Transaction} {sum : UInt64}
    (hreward : tx.isReward = false) (hne : tx.sender ≠ tx.receiver)
    (hle : tx.value ≤ b.amountOf tx.sender)
    (hsum : checkedAdd (b.amountOf tx.receiver) tx.value = some sum) :
    b.Moves [tx]
      ((b.insert tx.sender (b.amountOf tx.sender - tx.value)).insert tx.receiver sum) := by
  have hvalue := toNat_of_checkedAdd hsum
  have hrest := UInt64.toNat_sub_of_le _ _ hle
  have hle := UInt64.le_iff_toNat_le.mp hle
  have htransfer : tx.isTransfer = true := by simp [Transaction.isTransfer, hreward, hne]
  constructor
  · intro a
    rw [Transaction.debitsFrom_singleton, Transaction.creditsTo_singleton, amountOf_insert,
      amountOf_insert]
    by_cases hs : a = tx.sender
    · have hr : a ≠ tx.receiver := hs ▸ hne
      have hcredit : tx.creditTo a = 0 := by simp [Transaction.creditTo, hreward, Ne.symm hr]
      have hdebit : tx.debitFrom a = tx.value.toNat := by
        simp [Transaction.debitFrom, htransfer, hs]
      rw [if_neg hr, if_pos hs, hcredit, hdebit, hs]
      omega
    · have hdebit : tx.debitFrom a = 0 := by simp [Transaction.debitFrom, Ne.symm hs]
      by_cases hr : a = tx.receiver
      · have hcredit : tx.creditTo a = tx.value.toNat := by
          simp [Transaction.creditTo, hreward, htransfer, hr]
        rw [if_pos hr, hcredit, hdebit, hr]
        omega
      · have hcredit : tx.creditTo a = 0 := by simp [Transaction.creditTo, hreward, Ne.symm hr]
        rw [if_neg hr, if_neg hs, hcredit, hdebit]
  · have hfirst := b.total_insert tx.sender (b.amountOf tx.sender - tx.value)
    have hsecond := Balances.total_insert (b.insert tx.sender (b.amountOf tx.sender - tx.value))
      tx.receiver sum
    have hminted : tx.minted = 0 := by simp [Transaction.minted, hreward]
    rw [amountOf_insert, if_neg (Ne.symm hne)] at hsecond
    rw [Transaction.mintedBy_singleton, hminted]
    omega

/-- An accepted transaction moves its value, and nothing else. -/
theorem moves_apply {b c : Balances} {tx : Transaction} (h : b.apply tx = .ok c) :
    b.Moves [tx] c := by
  rcases apply_cases h with ⟨hreward, hself, sum, hsum, rfl⟩ | ⟨hreward, hself, rfl⟩ |
    ⟨hreward, hne, hle, sum, hsum, rfl⟩
  · exact moves_reward hreward hself hsum
  · exact moves_self hreward hself
  · exact moves_transfer hreward hne hle hsum

end Balances

theorem Snapshot.moves_applyAll {s t : Snapshot} {txs : List Transaction}
    (h : s.applyAll txs = .ok t) : s.balances.Moves txs t.balances := by
  induction txs generalizing s with
  | nil => cases h; exact .refl _
  | cons tx txs ih =>
    obtain ⟨b, hb, hrest⟩ := applyAll_cons_eq_ok h
    exact (Balances.moves_apply hb).trans (ih hrest)

end LedgerNode
