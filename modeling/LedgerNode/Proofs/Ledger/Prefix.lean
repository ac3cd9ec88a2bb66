import LedgerNode.Proofs.Ledger.Atomicity
import LedgerNode.Proofs.Sync

/-!
How far a batch of blocks is taken.  The blocks before the first that is refused are added, so their
number is the greatest for which the ledger takes that many of them one after the other.
-/
namespace LedgerNode

/-- Records go to the end of a log one by one, and each is taken. -/
inductive Appends {L : Type} [BlockLog L] : L → List Record → L → Prop
  | nil (log : L) : Appends log [] log
  | cons {log log' log'' : L} {r : Record} {rs : List Record}
      (happend : BlockLog.append log r = (.ok (), log')) (hrest : Appends log' rs log'') :
      Appends log (r :: rs) log''

theorem Appends.holds {L : Type} [LawfulLog L] {log log' : L} {rs old : List Record}
    (h : Appends log rs log') (hold : LawfulLog.Holds log old) :
    LawfulLog.Holds log' (old ++ rs) := by
  induction h generalizing old with
  | nil log => rwa [List.append_nil]
  | cons happend _ ih =>
    rw [List.append_cons]
    exact ih (LawfulLog.holds_append hold happend)

namespace Ledger

variable {L : Type}

section added

variable [BlockLog L] {l m : Ledger L} {bs : List Block}

theorem Adds.unique {m' : Ledger L} (h : l.Adds bs m) (h' : l.Adds bs m') : m = m' := by
  induction h with
  | nil l =>
    cases h'
    rfl
  | cons hadd _ ih =>
    cases h' with
    | cons hadd' hrest' =>
      cases hadd.symm.trans hadd'
      exact ih hrest'

theorem Adds.split {bs' : List Block} (h : l.Adds (bs ++ bs') m) :
    ∃ u, l.Adds bs u ∧ u.Adds bs' m := by
  induction bs generalizing l with
  | nil => exact ⟨l, .nil l, h⟩
  | cons b bs ih =>
    cases h with
    | cons hadd hrest =>
      obtain ⟨u, hbs, hbs'⟩ := ih hrest
      exact ⟨u, .cons hadd hbs, hbs'⟩

theorem Adds.take (h : l.Adds bs m) (k : Nat) : ∃ u, l.Adds (bs.take k) u := by
  rw [← List.take_append_drop k bs] at h
  obtain ⟨u, hu, -⟩ := h.split
  exact ⟨u, hu⟩

/-- The record of an added block has the digest of the block, whatever it was said to be. -/
theorem Adds.appends (h : l.Adds bs m) : Appends l.log (bs.map Record.ofBlock) m.log := by
  induction h with
  | nil => exact .nil _
  | cons hadd _ ih =>
    obtain ⟨-, -, _, _, -, happend, -, rfl⟩ := addBlock_eq_ok_iff.mp hadd
    exact .cons happend ih

theorem adds_of_addBlocksFrom_ok {n applied : Nat} (h : l.addBlocksFrom n bs = (.ok applied, m)) :
    l.Adds bs m ∧ applied = n + bs.length := by
  induction bs generalizing l n with
  | nil =>
    cases h
    exact ⟨.nil _, rfl⟩
  | cons b bs ih =>
    rw [addBlocksFrom] at h
    rcases hadd : l.addBlock b with ⟨e | d, u⟩
    · rw [hadd] at h
      cases h
    · rw [hadd] at h
      obtain ⟨hrest, happlied⟩ := ih h
      refine ⟨.cons hadd hrest, ?_⟩
      rw [happlied, List.length_cons]
      omega

end added

/-- The ledger takes the first `k` of the blocks one after the other, and not one more. -/
structure TakesFirst [BlockLog L] (l : Ledger L) (bs : List Block) (k : Nat) (m : Ledger L) :
    Prop where
  le_length : k ≤ bs.length
  adds : l.Adds (bs.take k) m
  greatest {j : Nat} {n : Ledger L} : j ≤ bs.length → l.Adds (bs.take j) n → j ≤ k

/-- A batch is taken as far as the ledger takes its blocks one after the other. -/
theorem takesFirst_addBlocks [LawfulLog L] (l : Ledger L) (bs : List Block) :
    l.TakesFirst bs (addedCount (l.addBlocks bs).1) (l.addBlocks bs).2 := by
  rcases h : l.addBlocks bs with ⟨e | applied, m⟩
  · obtain ⟨hdone, b, hb, hrefused⟩ := adds_of_addBlocks_error h
    obtain ⟨hlt, hget⟩ := List.getElem?_eq_some_iff.mp hb
    refine ⟨Nat.le_of_lt hlt, hdone, fun {j n} _ hn => Nat.not_lt.mp fun hlonger => ?_⟩
    -- a longer prefix goes on with the block that is refused
    change e.applied < j at hlonger
    obtain ⟨u, hu⟩ := hn.take (e.applied + 1)
    rw [List.take_take, Nat.min_eq_left hlonger, List.take_add_one, hb] at hu
    obtain ⟨v, hv, hnext⟩ := hu.split
    obtain rfl := hdone.unique hv
    cases hnext with
    | cons hadd _ => cases hadd.symm.trans hrefused
  · obtain ⟨hall, rfl⟩ := adds_of_addBlocksFrom_ok h
    simp only [addedCount, Nat.zero_add]
    exact ⟨Nat.le_refl _, by rwa [List.take_length], fun hj _ => hj⟩

end Ledger
end LedgerNode
