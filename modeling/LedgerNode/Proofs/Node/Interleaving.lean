import LedgerNode.Proofs.Ledger.Height
import LedgerNode.Proofs.Sync

/-!
The loops of a node side by side.  Synchronization and mining share the ledger and the pool without
a common lock: each takes its own small steps, clients submit transactions in between, and the steps
may interleave in any way.  What the node does in one go is such a run without interruption.  A loop
that panics, because there is no height for a block, takes no step any more; the other one goes on.
-/
namespace LedgerNode

/-- A block that has passed its check, but is not committed yet. -/
structure VettedBlock extends CheckedBlock where
  applies : base.applyBlock block = .ok result

/-- How far the synchronization loop is. -/
inductive SyncStage where
  | idle
  /-- The transactions of the blocks `left` have still to leave the pool. -/
  | purging (done left : List Block)
  /-- The blocks `left` have still to be committed. -/
  | adding (done left : List Block)
  | committing (done : List Block) (c : VettedBlock) (left : List Block)
  /-- The mining loop has still to be told of the blocks `left`. -/
  | notifying (left : List Block)
  /-- The loop has panicked, and nobody will be told of the blocks `unsent`. -/
  | crashed (unsent : List Block)

/-- How far the mining loop is. -/
inductive MineStage where
  | idle
  /-- The ledger was looked at, the pool not yet. -/
  | looked (s : Snapshot)
  /-- There is a candidate, or none can be made; `left` has still to leave the pool. -/
  | evicting (start : MiningStart) (left : List TransactionId)
  | searching (a : Attempt)
  | committing (a : Attempt) (c : VettedBlock)
      (hfound : ∃ nonce, c.block = a.candidate.withNonce nonce)
  /-- The block is committed; its transactions have still to leave the pool. -/
  | clearing (a : Attempt)
  | crashed

namespace MineStage

def attempt? : MineStage → Option Attempt
  | idle | looked _ | crashed => none
  | evicting start _ => start.attempt?
  | searching a | committing a _ _ | clearing a => some a

/-- The loop is ready to turn to whatever comes in. -/
def isWaiting : MineStage → Bool
  | idle | searching _ => true
  | _ => false

def notice (b : Block) : MineStage → MineStage
  | searching a => searching (a.notice b)
  | m => m

end MineStage

section panics

variable {L : Type} [BlockLog L]

/-- The synchronization loop is about to panic over a block, when those in `done` are committed. -/
inductive SyncStage.Panics (l : Ledger L) : SyncStage → (done : List Block) → Prop
  | check {done left : List Block} {b : Block}
      (hcheck : Ledger.checkBlock l.snapshot b = .error .heightOverflow) :
      Panics l (.adding done (b :: left)) done
  | commit {done left : List Block} {c : VettedBlock}
      (hcommit : (l.commit c.toCheckedBlock).1 = .error .heightOverflow) :
      Panics l (.committing done c left) done

/-- The mining loop is about to panic, over its candidate or over the block that was found. -/
inductive MineStage.Panics (l : Ledger L) : MineStage → Prop
  | start : Panics l (.evicting .heightOverflow [])
  | check {a : Attempt} {nonce : UInt32} (hlive : a.isCancelled = false)
      (hcheck : Ledger.checkBlock l.snapshot (a.candidate.withNonce nonce) = .error .heightOverflow) :
      Panics l (.searching a)
  | commit {a : Attempt} {c : VettedBlock} {hfound : ∃ nonce, c.block = a.candidate.withNonce nonce}
      (hcommit : (l.commit c.toCheckedBlock).1 = .error .heightOverflow) :
      Panics l (.committing a c hfound)

end panics

/-- A node whose loops are under way. -/
structure SharedNode (L : Type) where
  node : Node L
  /-- What the synchronization loop has told, and the mining loop not heard. -/
  notices : Queue Block
  round : SyncStage
  miner : MineStage

inductive NodeEvent where
  /-- The pool has taken a transaction. -/
  | submitted (tx : Transaction)
  | fetched (bs : List Block)
  /-- The transactions of a fetched block have left the pool. -/
  | purged (b : Block)
  /-- A fetched block is committed. -/
  | synced (b : Block)
  /-- A block of the mining loop is committed. -/
  | mined (b : Block)
  deriving DecidableEq

def NodeEvent.isCommit : NodeEvent → Bool
  | synced _ | mined _ => true
  | _ => false

namespace SharedNode

variable {L : Type} [BlockLog L]

/-- The steps of the synchronization loop.  All transactions leave the pool before the first block
is committed. -/
inductive SyncStep : SharedNode L → Option NodeEvent → SharedNode L → Prop
  | fetch {n q m} (bs : List Block) :
      SyncStep ⟨n, q, .idle, m⟩ (some (.fetched bs)) ⟨n, q, .purging [] bs, m⟩
  | purge {n q done b left m} :
      SyncStep ⟨n, q, .purging done (b :: left), m⟩ (some (.purged b))
        ⟨n.forget b.transactionIds, q, .purging (done ++ [b]) left, m⟩
  | purged {n q bs m} : SyncStep ⟨n, q, .purging bs [], m⟩ none ⟨n, q, .adding [] bs, m⟩
  | check {n q done b left m} {c : VettedBlock}
      (hcheck : Ledger.checkBlock n.ledger.snapshot b = .ok c.toCheckedBlock) :
      SyncStep ⟨n, q, .adding done (b :: left), m⟩ none ⟨n, q, .committing done c left, m⟩
  | reject {n q done b left m e}
      (hcheck : Ledger.checkBlock n.ledger.snapshot b = .error (.error e)) :
      SyncStep ⟨n, q, .adding done (b :: left), m⟩ none ⟨n, q, .notifying done, m⟩
  | commit {n q done c left m d l} (hcommit : n.ledger.commit c.toCheckedBlock = (.ok d, l)) :
      SyncStep ⟨n, q, .committing done c left, m⟩ (some (.synced c.block))
        ⟨{ n with ledger := l }, q, .adding (done ++ [c.block]) left, m⟩
  | refuse {n q done c left m e l}
      (hcommit : n.ledger.commit c.toCheckedBlock = (.error (.error e), l)) :
      SyncStep ⟨n, q, .committing done c left, m⟩ none
        ⟨{ n with ledger := l }, q, .notifying done, m⟩
  | added {n q done m} : SyncStep ⟨n, q, .adding done [], m⟩ none ⟨n, q, .notifying done, m⟩
  | notify {n q q' b left m} (hsend : q.send? b = some q') :
      SyncStep ⟨n, q, .notifying (b :: left), m⟩ none ⟨n, q', .notifying left, m⟩
  /-- The mining loop is gone. -/
  | unheard {n q left m} (hclosed : q.isOpen = false) :
      SyncStep ⟨n, q, .notifying left, m⟩ none ⟨n, q, .idle, m⟩
  | notified {n q m} : SyncStep ⟨n, q, .notifying [], m⟩ none ⟨n, q, .idle, m⟩
  | crash {n q r done m} (hpanics : r.Panics n.ledger done) :
      SyncStep ⟨n, q, r, m⟩ none ⟨n, q, .crashed done, m⟩

/-- The steps of the mining loop.  It looks at the ledger before it reads the pool. -/
inductive MineStep : SharedNode L → Option NodeEvent → SharedNode L → Prop
  /-- A submitted transaction was announced. -/
  | hear {n q r m} (hwaiting : m.isWaiting = true) :
      MineStep ⟨n, q, r, m⟩ none ⟨{ n with pool := n.pool.receive.2 }, q, r, m⟩
  | notice {n q r m b q'} (hwaiting : m.isWaiting = true) (hreceive : q.receive = (.item b, q')) :
      MineStep ⟨n, q, r, m⟩ none ⟨n.noticeBlock b, q', r, m.notice b⟩
  | look {n q r} : MineStep ⟨n, q, r, .idle⟩ none ⟨n, q, r, .looked n.ledger.snapshot⟩
  | read {n q r s} (miner : Account) (now : UInt64) :
      MineStep ⟨n, q, r, .looked s⟩ none
        ⟨n, q, r, .evicting (Attempt.ofKept miner now s (s.sift n.pool.oldestFirst).kept)
          (s.sift n.pool.oldestFirst).evicted⟩
  | evict {n q r a id left} :
      MineStep ⟨n, q, r, .evicting a (id :: left)⟩ none ⟨n.forget [id], q, r, .evicting a left⟩
  | search {n q r a} : MineStep ⟨n, q, r, .evicting (.attempt a) []⟩ none ⟨n, q, r, .searching a⟩
  | skip {n q r} : MineStep ⟨n, q, r, .evicting .nothing []⟩ none ⟨n, q, r, .idle⟩
  /-- The attempt was cancelled, its search failed, or its block does not apply any more. -/
  | abandon {n q r a} : MineStep ⟨n, q, r, .searching a⟩ none ⟨n, q, r, .idle⟩
  | check {n q r a} {c : VettedBlock} (hlive : a.isCancelled = false)
      (hfound : ∃ nonce, c.block = a.candidate.withNonce nonce)
      (hcheck : Ledger.checkBlock n.ledger.snapshot c.block = .ok c.toCheckedBlock) :
      MineStep ⟨n, q, r, .searching a⟩ none ⟨n, q, r, .committing a c hfound⟩
  | commit {n q r a c hfound d l} (hcommit : n.ledger.commit c.toCheckedBlock = (.ok d, l)) :
      MineStep ⟨n, q, r, .committing a c hfound⟩ (some (.mined c.block))
        ⟨{ n with ledger := l }, q, r, .clearing a⟩
  | refuse {n q r a c hfound e l}
      (hcommit : n.ledger.commit c.toCheckedBlock = (.error (.error e), l)) :
      MineStep ⟨n, q, r, .committing a c hfound⟩ none ⟨{ n with ledger := l }, q, r, .idle⟩
  | clear {n q r a} : MineStep ⟨n, q, r, .clearing a⟩ none ⟨n.forget a.ids, q, r, .idle⟩
  /-- Nobody receives what the loop received. -/
  | crash {n q r m} (hpanics : m.Panics n.ledger) :
      MineStep ⟨n, q, r, m⟩ none ⟨n.closePool, q.close, r, .crashed⟩

/-- A step of either loop, or a submission. -/
inductive Step : SharedNode L → Option NodeEvent → SharedNode L → Prop
  | sync {s e t} (h : SyncStep s e t) : Step s e t
  | mine {s e t} (h : MineStep s e t) : Step s e t
  | submit {n q r m tx id p} (hadd : n.pool.add tx = (.ok id, p)) :
      Step ⟨n, q, r, m⟩ (some (.submitted tx)) ⟨{ n with pool := p }, q, r, m⟩

/-- Steps in order, and what happens in them. -/
inductive Steps : SharedNode L → List NodeEvent → SharedNode L → Prop
  | nil (s : SharedNode L) : Steps s [] s
  | snoc {s m t : SharedNode L} {tr : List NodeEvent} {e : Option NodeEvent}
      (hsteps : Steps s tr m) (hstep : Step m e t) : Steps s (tr ++ e.toList) t

theorem Steps.append {s m t : SharedNode L} {tr us : List NodeEvent} (h : Steps s tr m)
    (h' : Steps m us t) : Steps s (tr ++ us) t := by
  induction h' with
  | nil => simpa using h
  | snoc _ hstep ih =>
    rw [← List.append_assoc]
    exact .snoc ih hstep

/-- A run can be cut at any event. -/
theorem Steps.split {s t : SharedNode L} {tr : List NodeEvent} (h : Steps s tr t)
    {before after : List NodeEvent} {e : NodeEvent} (htr : tr = before ++ e :: after) :
    ∃ m m', Steps s before m ∧ Step m (some e) m' ∧ Steps m' after t := by
  induction h generalizing after with
  | nil => simp at htr
  | @snoc m t tr e' hsteps hstep ih =>
    cases e' with
    | none =>
      obtain ⟨u, u', hbefore, he, hafter⟩ := ih (by simpa using htr)
      refine ⟨u, u', hbefore, he, ?_⟩
      simpa using hafter.snoc hstep
    | some x =>
      rcases List.eq_nil_or_concat after with rfl | ⟨after, y, rfl⟩
      · obtain ⟨rfl, rfl⟩ : tr = before ∧ x = e := by
          simpa using List.append_inj' (by simpa using htr : tr ++ [x] = before ++ [e]) rfl
        exact ⟨m, t, hsteps, hstep, .nil t⟩
      · have htr' : tr ++ [x] = (before ++ e :: after) ++ [y] := by simpa using htr
        obtain ⟨htr', hxy⟩ := List.append_inj' htr' rfl
        obtain ⟨u, u', hbefore, he, hafter⟩ := ih htr'
        refine ⟨u, u', hbefore, he, ?_⟩
        simpa [← List.singleton_inj.mp hxy] using hafter.snoc hstep

theorem Step.steps {s t : SharedNode L} {e : Option NodeEvent} (h : Step s e t) :
    Steps s e.toList t := by
  simpa using (Steps.nil s).snoc h

section uninterrupted

variable (n : Node L) (q : Queue Block)

theorem steps_purge (done bs : List Block) (m : MineStage) :
    Steps ⟨n, q, .purging done bs, m⟩ (bs.map .purged)
      ⟨n.forget (bs.flatMap (·.transactionIds)), q, .purging (done ++ bs) [], m⟩ := by
  induction bs generalizing n done with
  | nil => simpa [Node.forget_nil] using Steps.nil (L := L) ⟨n, q, .purging done [], m⟩
  | cons b bs ih =>
    have hfirst : Steps ⟨n, q, .purging done (b :: bs), m⟩ [.purged b]
        ⟨n.forget b.transactionIds, q, .purging (done ++ [b]) bs, m⟩ :=
      (Step.sync .purge).steps
    simpa [Node.forget_append] using hfirst.append (ih (n.forget b.transactionIds) (done ++ [b]))

/-- The two halves of adding a block, one after the other, add it. -/
theorem steps_addBlock (done left : List Block) (b : Block) (m : MineStage) :
    (∀ d l, n.ledger.addBlock b = (.ok d, l) →
      Steps ⟨n, q, .adding done (b :: left), m⟩ [.synced b]
        ⟨{ n with ledger := l }, q, .adding (done ++ [b]) left, m⟩) ∧
    (∀ e l, n.ledger.addBlock b = (.error (.error e), l) →
      Steps ⟨n, q, .adding done (b :: left), m⟩ []
        ⟨{ n with ledger := l }, q, .notifying done, m⟩) ∧
    (∀ l, n.ledger.addBlock b = (.error .heightOverflow, l) →
      Steps ⟨n, q, .adding done (b :: left), m⟩ []
        ⟨{ n with ledger := l }, q, .crashed done, m⟩) := by
  rcases Ledger.checkBlock_cases n.ledger.snapshot b with ⟨c, hc, rfl, happlies⟩ | ⟨f, hc, hf⟩
  · have hcheck : Steps ⟨n, q, .adding done (c.block :: left), m⟩ []
        ⟨n, q, .committing done ⟨c, happlies⟩ left, m⟩ :=
      (Step.sync (.check hc)).steps
    rw [← Ledger.commit_eq_addBlock happlies]
    refine ⟨fun d l h => hcheck.append (Step.sync (.commit h)).steps,
      fun e l h => hcheck.append (Step.sync (.refuse h)).steps, fun l h => ?_⟩
    obtain rfl : l = n.ledger :=
      (Ledger.addBlock_overflow_iff.mp ((Ledger.commit_eq_addBlock happlies).symm.trans h)).2
    exact hcheck.append (Step.sync (.crash (.commit (congrArg Prod.fst h)))).steps
  · rw [Ledger.addBlock, hc]
    refine ⟨nofun, ?_, ?_⟩
    · rintro _ _ ⟨⟩
      exact (Step.sync (.reject hc)).steps
    · rintro _ ⟨⟩
      exact (Step.sync (.crash (.check hc))).steps

/-- Where a round is when it has tried to add its blocks, and these are committed. -/
def roundAfter (committed : List Block) : Except BatchError Nat → SyncStage
  | .error ⟨_, .heightOverflow⟩ => .crashed committed
  | _ => .notifying committed

theorem steps_addBlocksFrom (done bs : List Block) (m : MineStage) (i : Nat) :
    ∃ k, addedCount (n.ledger.addBlocksFrom i bs).1 = i + k ∧
      Steps ⟨n, q, .adding done bs, m⟩ ((bs.take k).map .synced)
        ⟨{ n with ledger := (n.ledger.addBlocksFrom i bs).2 }, q,
          roundAfter (done ++ bs.take k) (n.ledger.addBlocksFrom i bs).1, m⟩ := by
  induction bs generalizing n done i with
  | nil =>
    have hadded : Steps ⟨n, q, .adding done [], m⟩ [] ⟨n, q, .notifying done, m⟩ :=
      (Step.sync .added).steps
    exact ⟨0, rfl, by simpa [Ledger.addBlocksFrom, roundAfter] using hadded⟩
  | cons b bs ih =>
    obtain ⟨hok, herror, hpanic⟩ := steps_addBlock n q done bs b m
    rcases h : n.ledger.addBlock b with ⟨(e | _) | d, l⟩
    · exact ⟨0, by simp [Ledger.addBlocksFrom, h, addedCount],
        by simpa [Ledger.addBlocksFrom, h, roundAfter] using herror e l h⟩
    · exact ⟨0, by simp [Ledger.addBlocksFrom, h, addedCount],
        by simpa [Ledger.addBlocksFrom, h, roundAfter] using hpanic l h⟩
    · obtain ⟨k, hk, hsteps⟩ := ih { n with ledger := l } (done ++ [b]) (i + 1)
      refine ⟨k + 1, ?_, ?_⟩
      · simpa [Ledger.addBlocksFrom, h, Nat.add_assoc, Nat.add_comm 1] using hk
      · simpa [Ledger.addBlocksFrom, h] using (hok d l h).append hsteps

/-- A round of synchronization that nothing interrupts takes over the blocks it fetched. -/
theorem steps_adopt (m : MineStage) {bs : List Block} {taken : Except BatchError Nat} {n' : Node L}
    (h : n.adopt bs = (taken, n')) :
    Steps ⟨n, q, .idle, m⟩
      (.fetched bs :: bs.map .purged ++ (bs.take (addedCount taken)).map .synced)
      ⟨n', q, roundAfter (bs.take (addedCount taken)) taken, m⟩ := by
  obtain ⟨k, hk, hadd⟩ :=
    steps_addBlocksFrom (n.forget (bs.flatMap (·.transactionIds))) q [] bs m 0
  rw [Node.ledger_forget, Nat.zero_add] at hk
  rw [Node.adopt_eq] at h
  obtain ⟨rfl, rfl⟩ := Prod.mk.inj h
  rw [Ledger.addBlocks, hk]
  have hfetch : Steps ⟨n, q, .idle, m⟩ [.fetched bs] ⟨n, q, .purging [] bs, m⟩ :=
    (Step.sync (.fetch bs)).steps
  have hpurged : Steps ⟨n.forget (bs.flatMap (·.transactionIds)), q, .purging bs [], m⟩ []
      ⟨n.forget (bs.flatMap (·.transactionIds)), q, .adding [] bs, m⟩ :=
    (Step.sync .purged).steps
  exact (hfetch.append (steps_purge n q [] bs m)).append (hpurged.append hadd)

theorem steps_evict (r : SyncStage) (a : MiningStart) (ids : List TransactionId) :
    Steps ⟨n, q, r, .evicting a ids⟩ [] ⟨n.forget ids, q, r, .evicting a []⟩ := by
  induction ids generalizing n with
  | nil => exact .nil _
  | cons id ids ih =>
    have hfirst : Steps ⟨n, q, r, .evicting a (id :: ids)⟩ []
        ⟨n.forget [id], q, r, .evicting a ids⟩ :=
      (Step.mine .evict).steps
    exact hfirst.append (ih (n.forget [id]))

/-- The node when the mining loop has tried to begin an attempt. -/
def afterStart (r : SyncStage) : MiningStart → SharedNode L
  | .nothing => ⟨n, q, r, .idle⟩
  | .attempt a => ⟨n, q, r, .searching a⟩
  | .heightOverflow => ⟨n.closePool, q.close, r, .crashed⟩

/-- An attempt that begins without interruption. -/
theorem steps_startAttempt (r : SyncStage) {miner : Account} {now : UInt64} {start : MiningStart}
    {n' : Node L} (h : n.startAttempt miner now = (start, n')) :
    Steps ⟨n, q, r, .idle⟩ [] (afterStart n' q r start) := by
  have hlook := (Step.mine (.look (n := n) (q := q) (r := r))).steps
  have hread := (Step.mine (.read (n := n) (q := q) (r := r) (s := n.ledger.snapshot) miner
    now)).steps
  have hbegin := (hlook.append hread).append (steps_evict n q r _ _)
  obtain ⟨hstart, rfl⟩ := Prod.mk.inj h
  rw [hstart] at hbegin
  suffices Steps ⟨n.forget (n.ledger.snapshot.sift n.pool.oldestFirst).evicted, q, r,
      .evicting start []⟩ [] (afterStart _ q r start) from hbegin.append this
  cases start with
  | attempt a => exact (Step.mine .search).steps
  | nothing => exact (Step.mine .skip).steps
  | heightOverflow => exact (Step.mine (.crash .start)).steps

/-- The node when the mining loop has ended an attempt, or panicked over it. -/
def afterFinish (r : SyncStage) : Option AttemptEnd → SharedNode L
  | some _ => ⟨n, q, r, .idle⟩
  | none => ⟨n.closePool, q.close, r, .crashed⟩

/-- An attempt whose search has found a block, and ends without interruption. -/
theorem steps_finishAttempt (r : SyncStage) {a : Attempt} {nonce : UInt32} {ending : Option AttemptEnd}
    {n' : Node L} (h : n.finishAttempt a (.ok (a.candidate.withNonce nonce)) = (ending, n')) :
    Steps ⟨n, q, r, .searching a⟩
      (if ending = some .committed then [.mined (a.candidate.withNonce nonce)] else [])
      (afterFinish n' q r ending) := by
  have habandon := (Step.mine (.abandon (n := n) (q := q) (r := r) (a := a))).steps
  by_cases hcancelled : a.isCancelled = true
  · rw [n.finishAttempt_of_isCancelled _ hcancelled] at h
    cases h
    exact habandon
  have hlive : a.isCancelled = false := by simpa using hcancelled
  rw [Node.finishAttempt, if_neg hcancelled] at h
  rcases Ledger.checkBlock_cases n.ledger.snapshot (a.candidate.withNonce nonce) with
    ⟨c, hc, hb, happlies⟩ | ⟨f, hc, -⟩
  · have hcheck := (Step.mine (.check (q := q) (r := r) (c := ⟨c, happlies⟩) hlive ⟨nonce, hb⟩
      (hb ▸ hc))).steps
    have hcommits : n.ledger.addBlock (a.candidate.withNonce nonce) = n.ledger.commit c := by
      rw [Ledger.commit_eq_addBlock happlies, hb]
    rw [hcommits] at h
    rcases hcommit : n.ledger.commit c with ⟨(e | _) | d, l⟩ <;> rw [hcommit] at h <;> cases h
    · exact hcheck.append (Step.mine (.refuse hcommit)).steps
    · obtain rfl : l = n.ledger :=
        (Ledger.addBlock_overflow_iff.mp (hcommits.trans hcommit)).2
      exact hcheck.append (Step.mine (.crash (.commit (congrArg Prod.fst hcommit)))).steps
    · have hdone := hcheck.append (Step.mine (.commit hcommit)).steps
      rw [← hb]
      exact hdone.append (Step.mine .clear).steps
  · rw [Ledger.addBlock, hc] at h
    cases f with
    | error e =>
      cases h
      exact habandon
    | heightOverflow =>
      cases h
      exact (Step.mine (.crash (.check hlive hc))).steps

end uninterrupted

end SharedNode
end LedgerNode
