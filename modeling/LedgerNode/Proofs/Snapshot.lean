import Mathlib.Algebra.GroupWithZero.Nat
import LedgerNode.Snapshot

/-!
What transactions and blocks may do to a snapshot.
-/
namespace LedgerNode.Snapshot

/-- Only the greatest height has none behind it. -/
theorem nextHeight?_eq_none_iff {s : Snapshot} :
    s.nextHeight? = none ↔ s.height.toNat = 2 ^ 64 - 1 := by
  have hlt : s.height.toNat < 2 ^ 64 := s.height.toNat_lt
  have hone : (1 : UInt64).toNat = 1 := rfl
  rw [nextHeight?, checkedAdd, hone, show UInt64.size = 2 ^ 64 from rfl]
  split <;> simp <;> omega

theorem nextHeight?_of_lt {s : Snapshot} (h : s.height.toNat < 2 ^ 64 - 1) :
    s.nextHeight? = some (s.height + 1) := by
  cases hnext : s.nextHeight? with
  | none => exact absurd (nextHeight?_eq_none_iff.mp hnext) (Nat.ne_of_lt h)
  | some height => rw [eq_of_nextHeight? hnext]

/-- A transaction changes balances only. -/
theorem apply_eq_ok {s t : Snapshot} {tx : Transaction} (h : s.apply tx = .ok t) :
    ∃ b, s.balances.apply tx = .ok b ∧ t = { s with balances := b } := by
  rw [apply] at h
  cases hb : s.balances.apply tx with
  | error e => rw [hb] at h; cases h
  | ok b => rw [hb] at h; cases h; exact ⟨b, rfl, rfl⟩

theorem applyAll_cons_eq_ok {s t : Snapshot} {tx : Transaction} {txs : List Transaction}
    (h : s.applyAll (tx :: txs) = .ok t) :
    ∃ b, s.balances.apply tx = .ok b ∧ applyAll { s with balances := b } txs = .ok t := by
  rw [applyAll_cons] at h
  cases hs : s.apply tx with
  | error e => rw [hs] at h; cases h
  | ok u =>
    rw [hs] at h
    obtain ⟨b, hb, rfl⟩ := apply_eq_ok hs
    exact ⟨b, hb, h⟩

theorem linkFault?_eq_none_iff {s : Snapshot} {b : Block} :
    s.linkFault? b = none ↔ s.nextHeight? = some b.header.height ∧ b.header.parent = s.tip := by
  rw [linkFault?]
  cases s.nextHeight? with
  | none => simp
  | some height =>
    by_cases hheight : height = b.header.height
    · by_cases hparent : b.header.parent = s.tip <;> simp [hheight, hparent]
    · simp [hheight, Ne.symm hheight]

/-- A block that extends the tip applies where its transactions do. -/
theorem applyBlock_of_extends {s : Snapshot} {b : Block}
    (hheight : s.nextHeight? = some b.header.height) (hparent : b.header.parent = s.tip) :
    s.applyBlock b = (s.applyAll b.transactions).mapError .error := by
  simp only [applyBlock, linkFault?_eq_none_iff.mpr ⟨hheight, hparent⟩]

/-- A block applies when it extends the tip and its transactions apply in order. -/
theorem applyBlock_eq_ok {s t : Snapshot} {b : Block} (h : s.applyBlock b = .ok t) :
    s.nextHeight? = some b.header.height ∧ b.header.parent = s.tip ∧
      s.applyAll b.transactions = .ok t := by
  cases hlink : s.linkFault? b with
  | some f =>
    rw [applyBlock, hlink] at h
    cases h
  | none =>
    obtain ⟨hheight, hparent⟩ := linkFault?_eq_none_iff.mp hlink
    rw [applyBlock_of_extends hheight hparent] at h
    cases hall : s.applyAll b.transactions with
    | error e => rw [hall] at h; cases h
    | ok u => rw [hall] at h; cases h; exact ⟨hheight, hparent, rfl⟩

/-- The check of a block panics where there is no height behind the tip, whatever the block. -/
theorem applyBlock_overflow_iff {s : Snapshot} {b : Block} :
    s.applyBlock b = .error .heightOverflow ↔ s.nextHeight? = none := by
  cases hnext : s.nextHeight? with
  | none => simp [applyBlock, linkFault?, hnext]
  | some height =>
    rw [applyBlock, linkFault?, hnext]
    by_cases hheight : b.header.height = height
    · by_cases hparent : b.header.parent = s.tip
      · -- the links hold, and no transaction fails for want of a height
        simp only [hheight, hparent, ne_eq, not_true, if_false]
        refine iff_of_false ?_ (Option.some_ne_none _)
        cases s.applyAll b.transactions <;> rintro ⟨⟩
      · simp [hheight, hparent]
    · simp [hheight]

/-- A block that applies is replayed to the same end: links are all that replaying leaves out. -/
theorem replay_of_applyBlock {s t : Snapshot} {b : Block} (h : s.applyBlock b = .ok t) :
    s.replay (Record.ofBlock b) = .ok (t.advance b.digest b.header.height) := by
  obtain ⟨-, -, hall⟩ := applyBlock_eq_ok h
  have hblock : (Record.ofBlock b).block = b := rfl
  rw [replay, hblock, hall]
  rfl

end LedgerNode.Snapshot
