import LedgerNode.Mining
import LedgerNode.Proofs.Ledger.Atomicity
import LedgerNode.Proofs.Ledger.Reload

/-!
Heights and their end.  A ledger begins at the height that its log names last, which may be any, and
every block that is committed adds one to it.  At the greatest height there is nothing to add one to:
whatever would need the next height panics, and changes nothing.
-/
namespace LedgerNode

theorem Attempt.ofKept_cases (miner : Account) (now : UInt64) (s : Snapshot)
    (kept : List (TransactionId × Transaction)) :
    (kept = [] ∧ ofKept miner now s kept = .nothing) ∨
    (kept ≠ [] ∧ s.nextHeight? = none ∧ ofKept miner now s kept = .heightOverflow) ∨
    (∃ height, kept ≠ [] ∧ s.nextHeight? = some height ∧ ofKept miner now s kept =
      .attempt ⟨⟨s.tip, height, now, miner, kept.map (·.2)⟩, kept.map (·.1), false⟩) := by
  by_cases hkept : kept = []
  · exact Or.inl ⟨hkept, by simp [ofKept, hkept]⟩
  · cases hnext : s.nextHeight? with
    | none => exact Or.inr (Or.inl ⟨hkept, rfl, by simp [ofKept, hkept, hnext]⟩)
    | some height => exact Or.inr (Or.inr ⟨height, hkept, rfl, by simp [ofKept, hkept, hnext]⟩)

/-- A candidate stands behind the tip of the snapshot, and holds what was kept. -/
theorem Attempt.eq_of_ofKept {miner : Account} {now : UInt64} {s : Snapshot}
    {kept : List (TransactionId × Transaction)} {a : Attempt}
    (h : ofKept miner now s kept = .attempt a) :
    ∃ height, s.nextHeight? = some height ∧
      a = ⟨⟨s.tip, height, now, miner, kept.map (·.2)⟩, kept.map (·.1), false⟩ := by
  rcases ofKept_cases miner now s kept with ⟨-, hnone⟩ | ⟨-, -, hover⟩ | ⟨height, -, hnext, hsome⟩
  · cases hnone.symm.trans h
  · cases hover.symm.trans h
  · cases hsome.symm.trans h
    exact ⟨height, hnext, rfl⟩

namespace Node

variable {L : Type}

/-- The candidate of an attempt is to come behind the tip of a ledger that stays as it is. -/
theorem height_startAttempt {n n' : Node L} {miner : Account} {now : UInt64} {a : Attempt}
    (h : n.startAttempt miner now = (.attempt a, n')) :
    n'.ledger = n.ledger ∧ n.ledger.snapshot.nextHeight? = some a.candidate.height := by
  obtain ⟨hstart, rfl⟩ := Prod.mk.inj h
  obtain ⟨height, hnext, rfl⟩ := Attempt.eq_of_ofKept hstart
  exact ⟨rfl, hnext⟩

/-- Beginning an attempt panics over what would be mined at the greatest height.  What no longer applies
has left the pool by then. -/
theorem startAttempt_overflow_iff {n m : Node L} {miner : Account} {now : UInt64} :
    n.startAttempt miner now = (.heightOverflow, m) ↔
      n.ledger.snapshot.nextHeight? = none ∧
        (n.ledger.snapshot.sift n.pool.oldestFirst).kept ≠ [] ∧
        m = n.forget (n.ledger.snapshot.sift n.pool.oldestFirst).evicted := by
  rw [startAttempt, Prod.mk.injEq, eq_comm (a := m)]
  rcases Attempt.ofKept_cases miner now n.ledger.snapshot
    (n.ledger.snapshot.sift n.pool.oldestFirst).kept with ⟨hempty, hstart⟩ |
      ⟨hkept, hnext, hstart⟩ | ⟨height, hkept, hnext, hstart⟩ <;>
    rw [hstart] <;> simp_all

end Node

namespace Ledger

section steps

variable {L : Type} [BoundedLog L] {l m : Ledger L} {txs : List Transaction} {rs : List Record}

/-- A step adds one to the height for each record that it appends. -/
theorem Step.height_eq (h : Step l txs rs m) :
    m.snapshot.height.toNat = l.snapshot.height.toNat + rs.length := by
  cases h with
  | limited limit => rfl
  | refused happend => rfl
  | added happly =>
    obtain ⟨b, -, rfl⟩ := Snapshot.apply_eq_ok happly
    rfl
  | committed happly happend =>
    exact Snapshot.nextHeight?_eq_some_iff.mp (Snapshot.applyBlock_eq_ok happly).1
  | persisted hpending hblock happend =>
    exact Snapshot.nextHeight?_eq_some_iff.mp (height_pendingBlock? hblock)

theorem Steps.height_eq (h : Steps l txs rs m) :
    m.snapshot.height.toNat = l.snapshot.height.toNat + rs.length := by
  induction h with
  | nil l => rfl
  | cons hstep _ ih => rw [ih, hstep.height_eq, List.length_append, Nat.add_assoc]

end steps

section calls

variable {L : Type} [BlockLog L] {l m : Ledger L}

theorem height_addBlock {b : Block} {d : Digest} (h : l.addBlock b = (.ok d, m)) :
    b.header.height = m.snapshot.height ∧
      m.snapshot.height.toNat = l.snapshot.height.toNat + 1 := by
  obtain ⟨hheight, -, s, log, -, -, -, rfl⟩ := addBlock_eq_ok_iff.mp h
  exact ⟨rfl, Snapshot.nextHeight?_eq_some_iff.mp hheight⟩

theorem height_persist {now : UInt64} {d : Digest} (h : l.persist now = (.ok d, m)) :
    m.snapshot.height.toNat = l.snapshot.height.toNat + 1 := by
  rcases l.persist_cases now with ⟨b, log, -, hblock, -, hp⟩ | ⟨b, e, log, -, -, hp⟩ | ⟨-, hp⟩ |
    ⟨-, -, hp⟩ <;> cases hp.symm.trans h
  exact Snapshot.nextHeight?_eq_some_iff.mp (height_pendingBlock? hblock)

/-- Adding a block panics at the greatest height, whatever the block. -/
theorem addBlock_overflow_iff {b : Block} :
    l.addBlock b = (.error .heightOverflow, m) ↔ l.snapshot.nextHeight? = none ∧ m = l := by
  rw [← Snapshot.applyBlock_overflow_iff (b := b)]
  constructor
  · intro h
    rcases l.addBlock_cases b with ⟨s, log, -, -, ha⟩ | ⟨e, log, -, ha⟩ | ⟨f, happly, ha⟩ <;>
      cases ha.symm.trans h
    exact ⟨happly, rfl⟩
  · rintro ⟨happly, rfl⟩
    rw [addBlock_eq, happly]

/-- A block that is not added leaves the height as it is. -/
theorem snapshot_of_addBlock_error {b : Block} {f : LedgerFault}
    (h : l.addBlock b = (.error f, m)) : m.snapshot = l.snapshot := by
  rcases l.addBlock_cases b with ⟨s, log, -, -, ha⟩ | ⟨e, log, -, ha⟩ | ⟨e, -, ha⟩ <;>
    cases ha.symm.trans h <;> rfl

/-- A batch panics where it has come to the greatest height and there is another block. -/
theorem addBlocks_overflow_iff {bs : List Block} {e : BatchError}
    (h : l.addBlocks bs = (.error e, m)) :
    e.cause = .heightOverflow ↔ m.snapshot.nextHeight? = none := by
  obtain ⟨done, b, rest, u, -, -, -, hrefused⟩ := adds_of_addBlocksFrom_error h
  rw [snapshot_of_addBlock_error hrefused]
  constructor
  · intro hcause
    rw [hcause] at hrefused
    exact (addBlock_overflow_iff.mp hrefused).1
  · intro hnext
    have hpanics : u.addBlock b = (.error .heightOverflow, u) :=
      addBlock_overflow_iff.mpr ⟨hnext, rfl⟩
    exact Except.error.inj (congrArg Prod.fst (hrefused.symm.trans hpanics))

/-- Sealing panics over what waits at the greatest height. -/
theorem persist_overflow_iff {now : UInt64} :
    l.persist now = (.error .heightOverflow, m) ↔
      l.snapshot.nextHeight? = none ∧ l.pending ≠ [] ∧ m = l := by
  constructor
  · intro h
    rcases l.persist_cases now with ⟨b, log, -, -, -, hp⟩ | ⟨b, e, log, -, -, hp⟩ | ⟨-, hp⟩ |
      ⟨hne, hnext, hp⟩ <;> cases hp.symm.trans h
    exact ⟨hnext, hne, rfl⟩
  · rintro ⟨hnext, hne, rfl⟩
    simp [persist, pendingBlock?, hnext, hne]

end calls

/-- Whatever needs the next height panics at the greatest one, and nowhere else.  The ledger stays as it
was. -/
structure PanicsAtHighest {L : Type} [BlockLog L] (l : Ledger L) : Prop where
  addBlock {b : Block} {m : Ledger L} :
    l.addBlock b = (.error .heightOverflow, m) ↔ l.snapshot.height.toNat = 2 ^ 64 - 1 ∧ m = l
  /-- It is the same for the second half of adding a block alone. -/
  commit {c : CheckedBlock} {m : Ledger L} (h : c.base.applyBlock c.block = .ok c.result) :
    l.commit c = (.error .heightOverflow, m) ↔ l.snapshot.height.toNat = 2 ^ 64 - 1 ∧ m = l
  /-- A batch has come to the greatest height when it panics. -/
  addBlocks {bs : List Block} {e : BatchError} {m : Ledger L} (h : l.addBlocks bs = (.error e, m)) :
    e.cause = .heightOverflow ↔ m.snapshot.height.toNat = 2 ^ 64 - 1
  persist {now : UInt64} {m : Ledger L} :
    l.persist now = (.error .heightOverflow, m) ↔
      l.snapshot.height.toNat = 2 ^ 64 - 1 ∧ l.pending ≠ [] ∧ m = l
  startAttempt {n m : Node L} {miner : Account} {now : UInt64} (h : n.ledger = l) :
    n.startAttempt miner now = (.heightOverflow, m) ↔
      l.snapshot.height.toNat = 2 ^ 64 - 1 ∧ (l.snapshot.sift n.pool.oldestFirst).kept ≠ [] ∧
        m = n.forget (l.snapshot.sift n.pool.oldestFirst).evicted

theorem panicsAtHighest {L : Type} [BlockLog L] (l : Ledger L) : l.PanicsAtHighest where
  addBlock := by
    rw [← Snapshot.nextHeight?_eq_none_iff]
    exact addBlock_overflow_iff
  commit happlies := by
    rw [← Snapshot.nextHeight?_eq_none_iff, commit_eq_addBlock happlies]
    exact addBlock_overflow_iff
  addBlocks h := by
    rw [← Snapshot.nextHeight?_eq_none_iff]
    exact addBlocks_overflow_iff h
  persist := by
    rw [← Snapshot.nextHeight?_eq_none_iff]
    exact persist_overflow_iff
  startAttempt h := by
    rw [← Snapshot.nextHeight?_eq_none_iff, ← h]
    exact Node.startAttempt_overflow_iff

/-- From any ledger on, whatever log it was loaded from: a run adds as much to the height as it commits
blocks, and so does every request behind it; no height wraps.  A block that is committed, by any
operation, and the candidate of an attempt have the height behind that of the tip.  At the greatest
height, and only there, whatever needs the next one panics. -/
theorem run_height {L : Type} [BoundedLog L] (l : Ledger L) (es : List Event) :
    let m := (l.run es).2
    m.snapshot.height.toNat = l.snapshot.height.toNat + (l.run es).1.commits ∧
      (∀ q, (m.serve q).2.snapshot.height.toNat =
        m.snapshot.height.toNat + commitCount q (m.serve q).1) ∧
      (∀ b d n, m.addBlock b = (.ok d, n) → b.header.height = n.snapshot.height ∧
        n.snapshot.height.toNat = m.snapshot.height.toNat + 1) ∧
      (∀ now d n, m.persist now = (.ok d, n) →
        n.snapshot.height.toNat = m.snapshot.height.toNat + 1) ∧
      (∀ pool registry miner now a n,
        (Node.mk m pool registry).startAttempt miner now = (.attempt a, n) →
        n.ledger = m ∧ a.candidate.height.toNat = m.snapshot.height.toNat + 1) ∧
      m.PanicsAtHighest := by
  intro m
  refine ⟨?_, fun q => ?_, fun b d n => height_addBlock, fun now d n => height_persist,
    fun pool registry miner now a n h => ?_, m.panicsAtHighest⟩
  · obtain ⟨rs, hlen, hsteps⟩ := l.steps_run es
    rw [← hlen]
    exact hsteps.height_eq
  · obtain ⟨rs, hlen, hsteps⟩ := m.steps_serve q
    rw [← hlen]
    exact hsteps.height_eq
  · obtain ⟨hledger, hheight⟩ := Node.height_startAttempt h
    exact ⟨hledger, Snapshot.nextHeight?_eq_some_iff.mp hheight⟩

/-- A record that names the greatest height. -/
def highestRecord : Record := .ofBlock ⟨⟨.zero, 0xffffffffffffffff, 0, 0⟩, []⟩

/-- A ledger that has read this record. -/
def highestLedger : Ledger FileLog :=
  ⟨⟨.empty, highestRecord.digest, 0xffffffffffffffff⟩, [], ⟨FileLog.line highestRecord, none⟩⟩

theorem load_highestRecord :
    load (Genesis.fileOf "sample" .empty) (.file (FileLog.line highestRecord)) none =
      (.ok highestLedger, .file (FileLog.line highestRecord)) := by
  have h := load_lines (Genesis.ofFile_fileOf "sample" .empty) [highestRecord] none
  rw [List.flatMap_singleton] at h
  exact h

/-- One block behind an empty ledger has height one.  Behind the greatest height a reward is still
accepted, and can never be sealed. -/
theorem run_height_highestLedger :
    (∃ n, ((inMemory .empty).run [⟨.call (.add sampleReward), none⟩]).2.persist 0 = n ∧
      n.2.snapshot.height.toNat = 1) ∧
    let m := (highestLedger.run [⟨.call (.add sampleReward), none⟩]).2
    m.pending = [sampleReward] ∧ m.persist 0 = (.error .heightOverflow, m) := by
  constructor
  · obtain ⟨-, -, -, hpersist, -⟩ :=
      run_height (inMemory .empty) [⟨.call (.add sampleReward), none⟩]
    exact ⟨_, rfl, hpersist 0 _ _ rfl⟩
  · obtain ⟨-, -, -, -, -, hpanics⟩ := run_height highestLedger [⟨.call (.add sampleReward), none⟩]
    intro m
    exact ⟨rfl, hpanics.persist.mpr ⟨rfl, List.cons_ne_nil _ _, rfl⟩⟩

/-- A log may name the greatest height.  Then no block is refused with an error: each panics. -/
theorem addBlock_panics :
    ∃ l : Ledger FileLog,
      (load (Genesis.fileOf "sample" .empty) (.file (FileLog.line highestRecord)) none).1 = .ok l ∧
      l.snapshot.height.toNat = 2 ^ 64 - 1 ∧
      (l.addBlock ⟨⟨highestRecord.digest, 0, 0, 0⟩, []⟩).1 = .error .heightOverflow := by
  have hpanics := addBlock_overflow_iff (l := highestLedger)
    (b := ⟨⟨highestRecord.digest, 0, 0, 0⟩, []⟩).mpr ⟨rfl, rfl⟩
  exact ⟨highestLedger, congrArg Prod.fst load_highestRecord, rfl, congrArg Prod.fst hpanics⟩

end Ledger
end LedgerNode
