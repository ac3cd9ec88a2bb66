import Mathlib.Algebra.BigOperators.Group.List.Basic
import LedgerNode.Proofs.Balances

/-!
The order of transactions.  It decides whether they all apply, but not where they lead: in every
order in which they apply they leave the same balances.
-/
namespace LedgerNode

/-- The accounts that have an entry once the transaction is applied, whatever they had before. -/
def Transaction.touched (tx : Transaction) : List Account :=
  if tx.isReward then [tx.receiver]
  else if tx.sender = tx.receiver then [] else [tx.sender, tx.receiver]

namespace Balances

/-- A transaction makes entries for the accounts that it touches, and for no other. -/
theorem mem_of_apply {b c : Balances} {tx : Transaction} (h : b.apply tx = .ok c) (a : Account) :
    a ∈ c ↔ a ∈ b ∨ a ∈ tx.touched := by
  rcases apply_cases h with ⟨hreward, -, sum, -, rfl⟩ | ⟨hreward, hself, rfl⟩ |
    ⟨hreward, hne, -, sum, -, rfl⟩
  · simp [Transaction.touched, hreward, SortedMap.mem_insert, or_comm]
  · simp [Transaction.touched, hreward, hself]
  · rw [SortedMap.mem_insert, SortedMap.mem_insert]
    simp only [Transaction.touched, hreward, Bool.false_eq_true, if_false, hne, List.mem_cons,
      List.not_mem_nil, or_false]
    tauto

/-- Balances are their entries and their amounts. -/
theorem eq_of_amountOf {b c : Balances} (hmem : ∀ a, a ∈ b ↔ a ∈ c)
    (hamount : ∀ a, b.amountOf a = c.amountOf a) : b = c := by
  refine SortedMap.ext fun a => ?_
  have hm := hmem a
  have ha := hamount a
  rw [SortedMap.mem_iff, SortedMap.mem_iff] at hm
  rw [amountOf, amountOf] at ha
  cases hb : b.get? a <;> cases hc : c.get? a <;> simp_all

/-- What is left of the transactions, in whatever order, makes up for the difference. -/
theorem Moves.rest {b c d : Balances} {txs us rest : List Transaction} (h : b.Moves txs c)
    (h' : b.Moves us d) (hperm : txs.Perm (us ++ rest)) : d.Moves rest c := by
  constructor
  · intro a
    have hc := h.account a
    have hd := h'.account a
    have hcredits : Transaction.creditsTo txs a = Transaction.creditsTo (us ++ rest) a :=
      (hperm.map _).sum_eq
    have hdebits : Transaction.debitsFrom txs a = Transaction.debitsFrom (us ++ rest) a :=
      (hperm.map _).sum_eq
    rw [Transaction.creditsTo_append] at hcredits
    rw [Transaction.debitsFrom_append] at hdebits
    omega
  · have hminted : Transaction.mintedBy txs = Transaction.mintedBy (us ++ rest) :=
      (hperm.map _).sum_eq
    rw [Transaction.mintedBy_append] at hminted
    have hc := h.total
    have hd := h'.total
    omega

theorem Moves.amountOf_eq {b c : Balances} (h : b.Moves [] c) (a : Account) :
    c.amountOf a = b.amountOf a :=
  UInt64.toNat_inj.mp (h.account a)

end Balances

namespace Snapshot

theorem applyAll_append (s : Snapshot) (txs us : List Transaction) :
    s.applyAll (txs ++ us) = (s.applyAll txs).bind fun t => t.applyAll us := by
  simp only [applyAll, List.foldlM_append]
  rfl

/-- Transactions look at balances only. -/
theorem apply_advance (s : Snapshot) (tip : Digest) (height : UInt64) (tx : Transaction) :
    (s.advance tip height).apply tx = (s.apply tx).map fun t => t.advance tip height := by
  simp only [apply, advance]
  cases s.balances.apply tx <;> rfl

theorem applyAll_advance (s : Snapshot) (tip : Digest) (height : UInt64) (txs : List Transaction) :
    (s.advance tip height).applyAll txs =
      (s.applyAll txs).map fun t => t.advance tip height := by
  induction txs generalizing s with
  | nil => rfl
  | cons tx txs ih =>
    rw [applyAll_cons, applyAll_cons, apply_advance]
    cases s.apply tx with
    | error e => rfl
    | ok t => exact ih t

theorem tip_of_applyAll {s t : Snapshot} {txs : List Transaction} (h : s.applyAll txs = .ok t) :
    t.tip = s.tip ∧ t.height = s.height := by
  induction txs generalizing s with
  | nil => cases h; exact ⟨rfl, rfl⟩
  | cons tx txs ih =>
    obtain ⟨b, -, hrest⟩ := applyAll_cons_eq_ok h
    have htip := ih hrest
    exact htip

theorem mem_of_applyAll {s t : Snapshot} {txs : List Transaction} (h : s.applyAll txs = .ok t)
    (a : Account) : a ∈ t.balances ↔ a ∈ s.balances ∨ ∃ tx ∈ txs, a ∈ tx.touched := by
  induction txs generalizing s with
  | nil => cases h; simp
  | cons tx txs ih =>
    obtain ⟨b, hb, hrest⟩ := applyAll_cons_eq_ok h
    rw [ih hrest, Balances.mem_of_apply hb]
    simp only [List.mem_cons, exists_eq_or_imp, or_assoc]

/-- Where both orders of the same transactions apply, they lead to the same state. -/
theorem applyAll_perm {s t u : Snapshot} {txs us : List Transaction} (h : s.applyAll txs = .ok t)
    (h' : s.applyAll us = .ok u) (hperm : txs.Perm us) : t = u := by
  have hbalances : t.balances = u.balances := by
    refine Balances.eq_of_amountOf (fun a => ?_) fun a => ?_
    · rw [mem_of_applyAll h, mem_of_applyAll h']
      simp only [hperm.mem_iff]
    · have hsame : txs.Perm (us ++ []) := by rwa [List.append_nil]
      exact ((moves_applyAll h).rest (moves_applyAll h') hsame).amountOf_eq a
  obtain ⟨htip, hheight⟩ := tip_of_applyAll h
  obtain ⟨htip', hheight'⟩ := tip_of_applyAll h'
  cases t
  cases u
  simp_all

end Snapshot
end LedgerNode
