import LedgerNode.Proofs.Ledger.Reload

/-!
The order in which transactions are accepted and the order in which they stand in the log.  The two
may differ, and whether the log replays depends on its own.  Where it does, it leads to the balances
that the ledger has computed in the other order, once what still waits is applied too.
-/
namespace LedgerNode.Ledger

section steps

variable {L : Type} {l m : Ledger L} {txs : List Transaction} {rs : List Record}

theorem Step.holds [LawfulLog L] (h : Step l txs rs m) {old : List Record}
    (hold : LawfulLog.Holds l.log old) : LawfulLog.Holds m.log (old ++ rs) := by
  cases h with
  | limited limit =>
    rw [List.append_nil]
    exact LawfulLog.holds_bounded limit hold
  | refused happend =>
    rw [List.append_nil, LawfulLog.eq_of_refused happend]
    exact hold
  | added happly =>
    rw [List.append_nil]
    exact hold
  | committed happly happend => exact LawfulLog.holds_append hold happend
  | persisted hpending hblock happend => exact LawfulLog.holds_append hold happend

/-- Records are only ever added, behind those that are there. -/
theorem Steps.holds [LawfulLog L] (h : Steps l txs rs m) {old : List Record}
    (hold : LawfulLog.Holds l.log old) : LawfulLog.Holds m.log (old ++ rs) := by
  induction h generalizing old with
  | nil l => rwa [List.append_nil]
  | cons hstep _ ih =>
    rw [← List.append_assoc]
    exact ih (hstep.holds hold)

/-- Replaying the records and then applying what waits leads to the state of the ledger, in whatever
order that was reached. -/
theorem Steps.eq_of_replay [BoundedLog L] (h : Steps l txs rs m) (hpending : l.pending = [])
    {s u : Snapshot} (hs : rs.foldlM Snapshot.replay l.snapshot = .ok s)
    (hu : s.applyAll m.pending = .ok u) : u = m.snapshot := by
  obtain ⟨live, hlive, hm⟩ := h.applied
  have hperm : txs.Perm (Record.transactions rs ++ m.pending) := by simpa [hpending] using h.perm
  rw [Snapshot.foldlM_replay] at hs
  cases hlogged : l.snapshot.applyAll (Record.transactions rs) with
  | error e =>
    rw [hlogged] at hs
    cases hs
  | ok t =>
    rw [hlogged] at hs
    cases hs
    rw [Snapshot.applyAll_along] at hu
    cases hwaiting : t.applyAll m.pending with
    | error e =>
      rw [hwaiting] at hu
      cases hu
    | ok v =>
      rw [hwaiting] at hu
      cases hu
      have hall : l.snapshot.applyAll (Record.transactions rs ++ m.pending) = .ok v := by
        rw [Snapshot.applyAll_append, hlogged]
        exact hwaiting
      rw [hm, Snapshot.applyAll_perm hlive hall hperm]

end steps

/-- Two orders of the same transactions, each of which applies as a whole, lead to the same state: the
same accounts have entries, with the same amounts, and the tip is the same.  Orders in between need not
apply.  So it is with every run of a ledger in which nothing waits at first: what it accepts is in the
new records of its log or waits, though in another order, and if these records replay and what waits
applies behind them, this gives the state of the ledger. -/
theorem applyAll_in_any_order :
    (∀ (s t u : Snapshot) (txs us : List Transaction), txs.Perm us → s.applyAll txs = .ok t →
      s.applyAll us = .ok u → t = u) ∧
    ∀ {L : Type} [LawfulLog L] (l : Ledger L) (es : List Event) (old : List Record),
      l.pending = [] → LawfulLog.Holds l.log old →
        let m := (l.run es).2
        ∃ new, BlockLog.records m.log = .ok (old ++ new) ∧
          (l.run es).1.accepted.Perm (Record.transactions new ++ m.pending) ∧
          ∀ s u, new.foldlM Snapshot.replay l.snapshot = .ok s → s.applyAll m.pending = .ok u →
            u = m.snapshot := by
  refine ⟨fun s t u txs us hperm ht hu => Snapshot.applyAll_perm ht hu hperm, ?_⟩
  intro L _ l es old hpending hold m
  obtain ⟨new, -, hsteps⟩ := l.steps_run es
  refine ⟨new, LawfulLog.records_eq (hsteps.holds hold), ?_, fun s u hs hu => ?_⟩
  · simpa [hpending] using hsteps.perm
  · exact hsteps.eq_of_replay hpending hs hu

/-- A second reward, later than the first. -/
def lateReward : Transaction := { sampleReward with time := 1 }

def spending : Transaction := ⟨sampleMiner, sampleReceiver, 5, .other, 0⟩

/-- The miner spends the reward that is in the same block. -/
def rewardedBlock : Block := ⟨⟨.zero, 1, 0, 0⟩, [sampleReward, spending]⟩

/-- The block comes while the second reward waits. -/
def overtaking : List Event :=
  [⟨.call (.add lateReward), none⟩, ⟨.call (.addBlock rewardedBlock), none⟩,
    ⟨.call (.persist 0), none⟩]

/-- The two rewards change places, though nothing can be spent before the first of them.  In the log
they stand in the other order than they were accepted in, and it replays to the state of the ledger. -/
theorem applyAll_in_any_order_overtaking :
    (∃ t, (Snapshot.ofBalances .empty).applyAll [sampleReward, spending, lateReward] = .ok t ∧
      (Snapshot.ofBalances .empty).applyAll [lateReward, spending, sampleReward] = .ok t) ∧
    ∃ rs s, ((inMemory .empty).run overtaking).1.accepted = [lateReward, sampleReward, spending] ∧
      BlockLog.records ((inMemory .empty).run overtaking).2.log = .ok rs ∧
      Record.transactions rs = [sampleReward, spending, lateReward] ∧
      rs.foldlM Snapshot.replay (.ofBalances .empty) = .ok s ∧
      s = ((inMemory .empty).run overtaking).2.snapshot := by
  obtain ⟨hany, hrun⟩ := applyAll_in_any_order
  constructor
  · obtain ⟨t, ht⟩ : ∃ t, (Snapshot.ofBalances .empty).applyAll
        [sampleReward, spending, lateReward] = .ok t := ⟨_, rfl⟩
    obtain ⟨u, hu⟩ : ∃ u, (Snapshot.ofBalances .empty).applyAll
        [lateReward, spending, sampleReward] = .ok u := ⟨_, rfl⟩
    obtain rfl := hany _ t u _ _ (by decide) ht hu
    exact ⟨t, ht, hu⟩
  · obtain ⟨rs, hrs, -, hsame⟩ := hrun (inMemory .empty) overtaking [] rfl rfl
    have hlog : BlockLog.records ((inMemory .empty).run overtaking).2.log =
        .ok [.ofBlock rewardedBlock, .ofBlock ⟨⟨rewardedBlock.digest, 2, 0, 0⟩, [lateReward]⟩] := rfl
    obtain rfl := Except.ok.inj (hlog.symm.trans hrs)
    obtain ⟨s, hs⟩ : ∃ s, [Record.ofBlock rewardedBlock,
        .ofBlock ⟨⟨rewardedBlock.digest, 2, 0, 0⟩, [lateReward]⟩].foldlM Snapshot.replay
          (.ofBalances .empty) = .ok s := ⟨_, rfl⟩
    exact ⟨_, s, rfl, hlog, rfl, hs, hsame s s hs rfl⟩

end LedgerNode.Ledger
