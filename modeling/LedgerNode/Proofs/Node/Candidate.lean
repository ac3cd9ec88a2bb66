import Mathlib.Data.List.Nodup
import LedgerNode.Mining.Worker
import LedgerNode.Proofs.Ledger.Run
import LedgerNode.Proofs.Node.MinedOnce
import LedgerNode.Proofs.Pool.Run

/-!
Candidates and the ledger that they were made on.  A candidate holds what survives when the pooled
transactions are applied one after another and those that fail are passed over.  What survives applies
as a whole, so while nothing else happens the ledger takes the block, whatever its nonce.
-/
namespace LedgerNode

namespace Snapshot

/-- Going through transactions in order: those that apply are applied and picked, the others leave no
trace. -/
inductive Picks : Snapshot → List (TransactionId × Transaction) →
    List (TransactionId × Transaction) → Snapshot → Prop
  | nil (s : Snapshot) : Picks s [] [] s
  | pick {s t u : Snapshot} {e : TransactionId × Transaction}
      {es kept : List (TransactionId × Transaction)} (happly : s.apply e.2 = .ok t)
      (hrest : Picks t es kept u) : Picks s (e :: es) (e :: kept) u
  | pass {s u : Snapshot} {e : TransactionId × Transaction}
      {es kept : List (TransactionId × Transaction)} {cause : LedgerError}
      (happly : s.apply e.2 = .error cause) (hrest : Picks s es kept u) : Picks s (e :: es) kept u

variable {s t : Snapshot} {es kept : List (TransactionId × Transaction)}

theorem picks_sift (s : Snapshot) (es : List (TransactionId × Transaction)) :
    ∃ t, Picks s es (s.sift es).kept t := by
  induction es generalizing s with
  | nil => exact ⟨s, .nil s⟩
  | cons e es ih =>
    rw [sift]
    cases happly : s.apply e.2 with
    | ok u =>
      obtain ⟨t, ht⟩ := ih u
      exact ⟨t, .pick happly ht⟩
    | error cause =>
      obtain ⟨t, ht⟩ := ih s
      exact ⟨t, .pass happly ht⟩

/-- What is picked depends on nothing but the state and the order. -/
theorem Picks.unique (h : Picks s es kept t) {kept' : List (TransactionId × Transaction)}
    {t' : Snapshot} (h' : Picks s es kept' t') : kept' = kept ∧ t' = t := by
  induction h generalizing kept' with
  | nil s =>
    cases h'
    exact ⟨rfl, rfl⟩
  | pick happly _ ih =>
    cases h' with
    | pick happly' hrest' =>
      cases happly.symm.trans happly'
      obtain ⟨rfl, rfl⟩ := ih hrest'
      exact ⟨rfl, rfl⟩
    | pass happly' hrest' => cases happly.symm.trans happly'
  | pass happly _ ih =>
    cases h' with
    | pick happly' hrest' => cases happly.symm.trans happly'
    | pass happly' hrest' => exact ih hrest'

/-- What is picked one by one applies as a whole. -/
theorem Picks.applyAll (h : Picks s es kept t) : s.applyAll (kept.map (·.2)) = .ok t := by
  induction h with
  | nil s => rfl
  | pick happly _ ih =>
    rw [List.map_cons, applyAll_cons, happly]
    exact ih
  | pass _ _ ih => exact ih

/-- Every transaction is either kept or evicted. -/
theorem sift_perm (s : Snapshot) (es : List (TransactionId × Transaction)) :
    ((s.sift es).kept.map (·.1) ++ (s.sift es).evicted).Perm (es.map (·.1)) := by
  induction es generalizing s with
  | nil => exact .refl _
  | cons e es ih =>
    rw [sift]
    cases s.apply e.2 with
    | ok u => exact (ih u).cons e.1
    | error cause => exact List.perm_middle.trans ((ih s).cons e.1)

/-- Among transactions of different identities, those that are not evicted are kept. -/
theorem mem_kept_iff (hids : (es.map (·.1)).Nodup) {e : TransactionId × Transaction} :
    e ∈ (s.sift es).kept ↔ e ∈ es ∧ e.1 ∉ (s.sift es).evicted := by
  have hsplit := (s.sift_perm es).nodup_iff.mpr hids
  have hdisjoint := (List.nodup_append.mp hsplit).2.2
  constructor
  · intro he
    exact ⟨mem_of_mem_kept he, fun hevicted =>
      hdisjoint e.1 (List.mem_map_of_mem he) e.1 hevicted rfl⟩
  · rintro ⟨he, hevicted⟩
    have hid : e.1 ∈ (s.sift es).kept.map (·.1) ++ (s.sift es).evicted :=
      (s.sift_perm es).mem_iff.mpr (List.mem_map_of_mem he)
    rcases List.mem_append.mp hid with hkept | hgone
    · obtain ⟨e', he', hsame⟩ := List.mem_map.mp hkept
      rwa [List.inj_on_of_nodup_map hids (mem_of_mem_kept he') he hsame] at he'
    · exact absurd hgone hevicted

end Snapshot

namespace Pool

theorem nodup_oldestFirst (p : Pool) : (p.oldestFirst.map (·.1)).Nodup :=
  (p.oldestFirst_sorted.1.map _).nodup_iff.mpr p.pending.nodup_keys

end Pool

namespace Node

variable {L : Type}

/-- A node that has begun an attempt has pooled just what was kept. -/
theorem pending_startAttempt (n : Node L) (miner : Account) (now : UInt64) (id : TransactionId)
    (tx : Transaction) :
    (n.startAttempt miner now).2.pool.pending.get? id = some tx ↔
      (id, tx) ∈ (n.ledger.snapshot.sift n.pool.oldestFirst).kept := by
  rw [Snapshot.mem_kept_iff n.pool.nodup_oldestFirst, n.pool.mem_oldestFirst]
  change (n.pool.removeAll _).2.pending.get? id = some tx ↔ _
  rw [Pool.get?_removeAll]
  split <;> simp_all

/-- Nothing that is pooled under an identity that leaves is there any more. -/
theorem isEmpty_of_forget {n : Node L} {ids : List TransactionId}
    (h : ∀ id tx, n.pool.pending.get? id = some tx → id ∈ ids) :
    (n.forget ids).pool.isEmpty = true := by
  rw [Pool.isEmpty, SortedMap.isEmpty, List.isEmpty_iff, List.eq_nil_iff_forall_not_mem]
  rintro ⟨id, tx⟩ hentry
  have hid := SortedMap.get?_eq_some_iff _ |>.mpr hentry
  have hin := h id tx (pending_of_forget hid)
  rw [forget, Pool.get?_removeAll, if_pos hin] at hid
  cases hid

theorem startAttempt_nothing_iff (n : Node L) (miner : Account) (now : UInt64) :
    (n.startAttempt miner now).1 = .nothing ↔
      (n.ledger.snapshot.sift n.pool.oldestFirst).kept = [] := by
  rw [startAttempt]
  rcases Attempt.ofKept_cases miner now n.ledger.snapshot
    (n.ledger.snapshot.sift n.pool.oldestFirst).kept with ⟨hkept, hstart⟩ | ⟨hkept, -, hstart⟩ |
      ⟨height, hkept, -, hstart⟩ <;>
    rw [hstart] <;> simp [hkept]

/-- The block of a candidate that was made of what is picked, whatever its nonce, is taken by the ledger
where its log takes the record. -/
theorem addBlock_withNonce [BlockLog L] {l : Ledger L}
    {es kept : List (TransactionId × Transaction)} {s : Snapshot}
    (hpicks : l.snapshot.Picks es kept s) {c : Candidate} (hparent : c.parent = l.snapshot.tip)
    (hheight : l.snapshot.nextHeight? = some c.height) (htransactions : c.transactions = kept.map (·.2))
    {nonce : UInt32} {log : L}
    (happend : BlockLog.append l.log (.ofBlock (c.withNonce nonce)) = (.ok (), log)) :
    l.addBlock (c.withNonce nonce) = (.ok (c.withNonce nonce).digest,
      ⟨s.advance (c.withNonce nonce).digest c.height, l.pending, log⟩) := by
  have hall : l.snapshot.applyAll (c.withNonce nonce).transactions = .ok s := by
    rw [← hpicks.applyAll, ← htransactions]
    rfl
  exact Ledger.addBlock_eq_ok_iff.mpr ⟨hheight, hparent, s, log, hall, happend, rfl, rfl⟩

theorem finishAttempt_committed [BlockLog L] {n : Node L} {a : Attempt} {b : Block} {d : Digest}
    {l : Ledger L} (hlive : a.isCancelled = false) (hadd : n.ledger.addBlock b = (.ok d, l)) :
    n.finishAttempt a (.ok b) = (some .committed, { n with ledger := l }.forget a.ids) := by
  simp [finishAttempt, hlive, hadd]

end Node

namespace MiningNode

variable {L : Type}

theorem start_nothing {m : MiningNode L} {miner : Account} {now : UInt64} {isHeld : Bool} {n : Node L}
    (hidle : m.worker = .idle) (hstart : m.node.startAttempt miner now = (.nothing, n)) :
    m.start miner now isHeld = ⟨n, .idle, m.counts⟩ := by
  simp [start, Worker.isIdle, hidle, hstart]

theorem start_attempt {m : MiningNode L} {miner : Account} {now : UInt64} {isHeld : Bool} {n : Node L}
    {a : Attempt} (hidle : m.worker = .idle)
    (hstart : m.node.startAttempt miner now = (.attempt a, n)) :
    m.start miner now isHeld = ⟨n, .take isHeld a, m.counts.start⟩ := by
  simp [start, Worker.isIdle, hidle, hstart]

/-- The node searches for a block of what was picked on its ledger, and has pooled nothing else. -/
structure Mines (m : MiningNode L) (a : Attempt) (es kept : List (TransactionId × Transaction))
    (s : Snapshot) : Prop where
  attempt : m.worker.attempt? = some a
  running : m.worker.isCrashed = false
  live : a.isCancelled = false
  picks : m.node.ledger.snapshot.Picks es kept s
  parent : a.candidate.parent = m.node.ledger.snapshot.tip
  height : m.node.ledger.snapshot.nextHeight? = some a.candidate.height
  transactions : a.candidate.transactions = kept.map (·.2)
  ids : a.ids = kept.map (·.1)
  pending (id : TransactionId) (tx : Transaction) :
    m.node.pool.pending.get? id = some tx ↔ (id, tx) ∈ kept

/-- An idle node that finds something to mine keeps just this pooled. -/
theorem mines_start {m : MiningNode L} {miner : Account} {now : UInt64} (isHeld : Bool) {n : Node L}
    {a : Attempt} {s : Snapshot} (hidle : m.worker = .idle)
    (hstart : m.node.startAttempt miner now = (.attempt a, n))
    (hpicks : m.node.ledger.snapshot.Picks m.node.pool.oldestFirst
      (m.node.ledger.snapshot.sift m.node.pool.oldestFirst).kept s) :
    (m.start miner now isHeld).Mines a m.node.pool.oldestFirst
      (m.node.ledger.snapshot.sift m.node.pool.oldestFirst).kept s := by
  have hpending := m.node.pending_startAttempt miner now
  have hledger : (m.node.startAttempt miner now).2.ledger = m.node.ledger := rfl
  obtain ⟨height, hnext, rfl⟩ := Attempt.eq_of_ofKept (congrArg Prod.fst hstart)
  rw [hstart] at hpending hledger
  rw [start_attempt hidle hstart]
  exact {
    attempt := Worker.attempt?_take isHeld _
    running := Worker.isCrashed_take isHeld _
    live := rfl
    picks := by rw [hledger]; exact hpicks
    parent := by rw [hledger]
    height := by rw [hledger]; exact hnext
    transactions := rfl
    ids := rfl
    pending := hpending }

theorem Mines.keyed {m : MiningNode L} {a : Attempt} {es kept : List (TransactionId × Transaction)}
    {s : Snapshot} (h : m.Mines a es kept s) (hkeyed : m.node.pool.Keyed) :
    a.ids = a.candidate.transactions.map (·.id) := by
  rw [h.ids, h.transactions, List.map_map]
  exact List.map_congr_left fun e he => hkeyed e.1 e.2 ((h.pending e.1 e.2).mpr he)

variable [BlockLog L]

theorem finish_committed {m : MiningNode L} {a : Attempt} {b : Block} {d : Digest} {l : Ledger L}
    (hrunning : m.worker.isCrashed = false) (ha : m.worker.attempt? = some a)
    (hlive : a.isCancelled = false) (hadd : m.node.ledger.addBlock b = (.ok d, l)) :
    m.finish (.ok b) =
      ⟨{ m.node with ledger := l }.forget a.ids, .idle, m.counts.finish .committed⟩ := by
  simp [finish, hrunning, ha, Node.finishAttempt_committed hlive hadd]

/-- Whatever nonce is found, the block is committed and takes with it all that is pooled. -/
theorem Mines.finish {m : MiningNode L} {a : Attempt} {es kept : List (TransactionId × Transaction)}
    {s : Snapshot} (h : m.Mines a es kept s) {nonce : UInt32}
    (hlog : (BlockLog.append m.node.ledger.log (.ofBlock (a.candidate.withNonce nonce))).1 =
      .ok ()) :
    let b := a.candidate.withNonce nonce
    let done := m.finish (.ok b)
    (m.node.ledger.addBlock b).1 = .ok b.digest ∧
    done.node.ledger = (m.node.ledger.addBlock b).2 ∧
    done.node.ledger.snapshot = s.advance b.digest (m.node.ledger.snapshot.height + 1) ∧
    done.node.ledger.snapshot.height.toNat = m.node.ledger.snapshot.height.toNat + 1 ∧
    done.node.pool.isEmpty = true ∧ done.worker = .idle ∧ done.counts = m.counts.finish .committed := by
  intro b done
  rcases happend : BlockLog.append m.node.ledger.log (.ofBlock b) with ⟨e | ⟨⟩, log⟩
  · rw [show BlockLog.append m.node.ledger.log _ = _ from happend] at hlog
    cases hlog
  have hadd := Node.addBlock_withNonce h.picks h.parent h.height h.transactions happend
  have hdone : done = _ := finish_committed h.running h.attempt h.live hadd
  have hheight := Snapshot.nextHeight?_eq_some_iff.mp h.height
  rw [hdone, show m.node.ledger.addBlock b = _ from hadd, ← Snapshot.eq_of_nextHeight? h.height]
  refine ⟨rfl, rfl, rfl, hheight, Node.isEmpty_of_forget fun id tx hid => ?_, rfl, rfl⟩
  rw [h.ids]
  exact List.mem_map_of_mem ((h.pending id tx).mp hid)

/-- An idle node that begins an attempt.  What survives of its pool, tried in order, is all that it keeps
pooled; it has nothing to mine exactly where nothing survives.  Otherwise the survivors in their order
are the candidate, and with every nonce that is found while nothing else happens the block of it is
committed, if only the log takes its record: the ledger is one higher, with this block as its tip,
the pool is empty, and one more attempt counts as committed. -/
theorem start_finish (m : MiningNode L) (miner : Account) (now : UInt64) (isHeld : Bool)
    (hidle : m.worker = .idle) (hheight : m.node.ledger.snapshot.height.toNat < 2 ^ 64 - 1) :
    m.node.pool.oldestFirst.Perm m.node.pool.pending.entries ∧
    m.node.pool.oldestFirst.Pairwise Pool.IsOlder ∧
    ∃ kept s, m.node.ledger.snapshot.Picks m.node.pool.oldestFirst kept s ∧
      (∀ kept' s', m.node.ledger.snapshot.Picks m.node.pool.oldestFirst kept' s' →
        kept' = kept ∧ s' = s) ∧
      let begun := m.start miner now isHeld
      begun.node.ledger = m.node.ledger ∧ begun.node.registry = m.node.registry ∧
      (∀ id tx, begun.node.pool.pending.get? id = some tx ↔ (id, tx) ∈ kept) ∧
      (begun.worker.attempt? = none ↔ kept = []) ∧
      (begun.worker.attempt? = none →
        begun.node.pool.isEmpty = true ∧ begun.worker = .idle ∧ begun.counts = m.counts) ∧
      ∀ a, begun.worker.attempt? = some a →
        begun.worker = .take isHeld a ∧ begun.counts = m.counts.start ∧ a.isCancelled = false ∧
        a.candidate = ⟨m.node.ledger.snapshot.tip, m.node.ledger.snapshot.height + 1, now, miner,
          kept.map (·.2)⟩ ∧
        a.ids = kept.map (·.1) ∧
        (m.node.pool.Keyed → a.ids = a.candidate.transactions.map (·.id)) ∧
        ∀ nonce,
          let b := a.candidate.withNonce nonce
          let done := begun.finish (.ok b)
          (BlockLog.append m.node.ledger.log (.ofBlock b)).1 = .ok () →
          (begun.node.ledger.addBlock b).1 = .ok b.digest ∧
          done.node.ledger = (begun.node.ledger.addBlock b).2 ∧
          done.node.ledger.snapshot = s.advance b.digest (m.node.ledger.snapshot.height + 1) ∧
          done.node.ledger.snapshot.height.toNat = m.node.ledger.snapshot.height.toNat + 1 ∧
          done.node.pool.isEmpty = true ∧ done.worker = .idle ∧
          done.counts = begun.counts.finish .committed := by
  obtain ⟨hperm, hsorted, -⟩ := m.node.pool.oldestFirst_sorted
  obtain ⟨s, hpicks⟩ := m.node.ledger.snapshot.picks_sift m.node.pool.oldestFirst
  have hpending := m.node.pending_startAttempt miner now
  have hnothing := m.node.startAttempt_nothing_iff miner now
  have hledger : (m.node.startAttempt miner now).2.ledger = m.node.ledger := rfl
  have hregistry : (m.node.startAttempt miner now).2.registry = m.node.registry := rfl
  refine ⟨hperm, hsorted, _, s, hpicks, fun kept' s' h' => hpicks.unique h', ?_⟩
  intro begun
  rcases hstart : m.node.startAttempt miner now with ⟨_ | a | _, n⟩ <;>
    rw [hstart] at hpending hnothing hledger hregistry
  · have hbegun : begun = ⟨n, .idle, m.counts⟩ := start_nothing hidle hstart
    have hkept := hnothing.mp rfl
    have hempty : n.pool.isEmpty = true := by
      rw [← n.forget_nil]
      refine Node.isEmpty_of_forget fun id tx hid => ?_
      rw [hpending, hkept] at hid
      cases hid
    rw [hbegun]
    exact ⟨hledger, hregistry, hpending, ⟨fun _ => hkept, fun _ => rfl⟩,
      fun _ => ⟨hempty, rfl, rfl⟩, nofun⟩
  · have hbegun : begun = ⟨n, .take isHeld a, m.counts.start⟩ := start_attempt hidle hstart
    have hmines : begun.Mines a _ _ s := mines_start isHeld hidle hstart hpicks
    obtain ⟨height, hnext, ha⟩ := Attempt.eq_of_ofKept (congrArg Prod.fst hstart)
    rw [Snapshot.eq_of_nextHeight? hnext] at ha
    have hkept : (m.node.ledger.snapshot.sift m.node.pool.oldestFirst).kept ≠ [] :=
      fun h => absurd (hnothing.mpr h) nofun
    refine ⟨by rw [hbegun, ← hledger], by rw [hbegun, ← hregistry], hmines.pending, ?_, ?_, ?_⟩
    · rw [hmines.attempt]
      exact ⟨nofun, fun h => absurd h hkept⟩
    · rw [hmines.attempt]
      exact nofun
    · intro a' ha'
      obtain rfl : a = a' := Option.some.inj (hmines.attempt.symm.trans ha')
      refine ⟨by rw [hbegun], by rw [hbegun], hmines.live, by rw [ha], hmines.ids, fun hkeyed => ?_,
        fun nonce => ?_⟩
      · refine hmines.keyed fun id tx hid => hkeyed id tx ?_
        have hkept' := Snapshot.mem_of_mem_kept ((hmines.pending id tx).mp hid)
        exact (m.node.pool.mem_oldestFirst _).mp hkept'
      · intro b done hlog
        have hsame : begun.node.ledger = m.node.ledger := by rw [hbegun, ← hledger]
        rw [← hsame] at hlog ⊢
        exact hmines.finish hlog
  · -- the ledger is not at the greatest height
    have hover := (Node.startAttempt_overflow_iff.mp hstart).1
    rw [Snapshot.nextHeight?_of_lt hheight] at hover
    cases hover

/-- The one reward that is pooled is mined. -/
theorem start_finish_emptyNode :
    let m : MiningNode MemoryLog := .ofNode SharedNode.emptyNode
    ∃ a, (m.start Ledger.sampleMiner 0 false).worker.attempt? = some a ∧
      a.candidate.transactions = [Ledger.sampleReward] ∧
      ∀ nonce,
        let done := (m.start Ledger.sampleMiner 0 false).finish (.ok (a.candidate.withNonce nonce))
        done.node.ledger.snapshot.tip = (a.candidate.withNonce nonce).digest ∧
        done.node.ledger.snapshot.height.toNat = 1 ∧ done.node.pool.isEmpty = true ∧
        done.counts = ⟨1, 1, 0, 0⟩ := by
  intro m
  have hsorted : m.node.pool.oldestFirst = [(Ledger.sampleReward.id, Ledger.sampleReward)] :=
    List.mergeSort_singleton _
  obtain ⟨-, -, kept, s, -, hunique, -, -, -, hnone, -, hsome⟩ :=
    m.start_finish Ledger.sampleMiner 0 false rfl (by decide)
  have hpicks : m.node.ledger.snapshot.Picks m.node.pool.oldestFirst
      [(Ledger.sampleReward.id, Ledger.sampleReward)]
        ⟨.ofList [(Ledger.sampleMiner, 5)], .zero, 0⟩ := by
    rw [hsorted]
    exact .pick rfl (.nil _)
  obtain ⟨rfl, rfl⟩ := hunique _ _ hpicks
  cases ha : (m.start Ledger.sampleMiner 0 false).worker.attempt? with
  | none => exact absurd (hnone.mp ha) (List.cons_ne_nil _ _)
  | some a =>
    obtain ⟨-, hcounts, -, hcandidate, -, -, hfinish⟩ := hsome a ha
    refine ⟨a, rfl, by rw [hcandidate]; rfl, fun nonce => ?_⟩
    obtain ⟨-, -, hsnapshot, hheight, hempty, -, hdone⟩ := hfinish nonce rfl
    exact ⟨congrArg Snapshot.tip hsnapshot, hheight, hempty, by rw [hdone, hcounts]; rfl⟩

end MiningNode

end LedgerNode
