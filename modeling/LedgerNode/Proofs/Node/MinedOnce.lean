import LedgerNode.Proofs.Node.Interleaving
import LedgerNode.Proofs.Snapshot

/-!
Transactions that synchronization has committed are not mined again.  They leave the pool before
their block is committed, and the mining loop looks at the ledger before it reads the pool; so a
candidate that still holds one of them was made for a height that is taken once the block is there.
-/
namespace LedgerNode

/-- A block that is committed stands one above the ledger that takes it. -/
theorem VettedBlock.height_of_commit {L : Type} [BlockLog L] {l m : Ledger L} {c : VettedBlock}
    {d : Digest} (h : l.commit c.toCheckedBlock = (.ok d, m)) :
    c.block.header.height = m.snapshot.height ∧
      m.snapshot.height.toNat = l.snapshot.height.toNat + 1 := by
  rw [Ledger.commit_eq_addBlock c.applies] at h
  exact Ledger.height_addBlock h

theorem VettedBlock.snapshot_of_refused {L : Type} [BlockLog L] {l m : Ledger L} {c : VettedBlock}
    {f : LedgerFault} (h : l.commit c.toCheckedBlock = (.error f, m)) : m.snapshot = l.snapshot := by
  rw [Ledger.commit_eq_addBlock c.applies] at h
  exact Ledger.snapshot_of_addBlock_error h

/-- What is kept was there before. -/
theorem Snapshot.mem_of_mem_kept {s : Snapshot} {es : List (TransactionId × Transaction)}
    {e : TransactionId × Transaction} (h : e ∈ (s.sift es).kept) : e ∈ es := by
  induction es generalizing s with
  | nil => simp [sift] at h
  | cons x es ih =>
    obtain ⟨id, tx⟩ := x
    rw [sift] at h
    split at h
    · rcases List.mem_cons.mp h with rfl | h
      · exact List.mem_cons_self
      · exact List.mem_cons_of_mem _ (ih h)
    · exact List.mem_cons_of_mem _ (ih h)

/-- The height that the block of the mining loop is meant for. -/
def MineStage.target? : MineStage → Option UInt64
  | looked s => s.nextHeight?
  | m => m.attempt?.map (·.candidate.height)

theorem MineStage.target?_of_attempt? {m : MineStage} {a : Attempt} (h : m.attempt? = some a) :
    m.target? = some a.candidate.height := by
  cases m with
  | looked => cases h
  | evicting start left => exact congrArg (Option.map _) h
  | _ => exact congrArg (Option.map fun a : Attempt => a.candidate.height) h

/-- A notice leaves the candidate as it is. -/
theorem MineStage.attempt?_of_notice {m : MineStage} {b : Block} {a : Attempt}
    (h : (m.notice b).attempt? = some a) :
    ∃ a', m.attempt? = some a' ∧ a'.candidate = a.candidate := by
  cases m with
  | searching a' =>
    cases h
    exact ⟨a', rfl, rfl⟩
  | _ => exact ⟨a, h, rfl⟩

theorem MineStage.target?_notice (m : MineStage) (b : Block) : (m.notice b).target? = m.target? := by
  cases m <;> rfl

/-- The blocks of a round whose transactions have left the pool, and that may still be committed. -/
def SyncStage.due : SyncStage → List Block
  | purging done _ => done
  | adding _ left => left
  | committing _ c left => c.block :: left
  | idle | notifying _ | crashed _ => []

namespace SharedNode

variable {L : Type} [BlockLog L]

def height (s : SharedNode L) : UInt64 := s.node.ledger.snapshot.height

def commits (tr : List NodeEvent) : Nat := tr.countP (·.isCommit)

@[simp] theorem commits_nil : commits [] = 0 := rfl

@[simp] theorem commits_cons (e : NodeEvent) (tr : List NodeEvent) :
    commits (e :: tr) = commits tr + if e.isCommit then 1 else 0 :=
  List.countP_cons

@[simp] theorem commits_append (tr us : List NodeEvent) :
    commits (tr ++ us) = commits tr + commits us :=
  List.countP_append

section steps

variable {s t : SharedNode L} {e : Option NodeEvent}

theorem SyncStep.miner_eq (h : SyncStep s e t) : t.miner = s.miner := by cases h <;> rfl

theorem MineStep.round_eq (h : MineStep s e t) : t.round = s.round := by cases h <;> rfl

/-- Every commit, and nothing else, raises the ledger by one. -/
theorem Step.height_eq (h : Step s e t) :
    t.height.toNat = s.height.toNat + commits e.toList := by
  cases h with
  | sync h =>
    cases h with
    | commit h => exact (VettedBlock.height_of_commit h).2
    | refuse h => exact congrArg (fun x : Snapshot => x.height.toNat) (VettedBlock.snapshot_of_refused h)
    | _ => rfl
  | mine h =>
    cases h with
    | commit h => exact (VettedBlock.height_of_commit h).2
    | refuse h => exact congrArg (fun x : Snapshot => x.height.toNat) (VettedBlock.snapshot_of_refused h)
    | _ => rfl
  | submit => rfl

/-- The mining loop aims above the ledger at the moment when it looks at it. -/
theorem Step.target?_cases (h : Step s e t) {x : UInt64} (hx : t.miner.target? = some x) :
    s.miner.target? = some x ∨ x.toNat = s.height.toNat + 1 := by
  cases h with
  | sync h => exact Or.inl (h.miner_eq ▸ hx)
  | submit => exact Or.inl hx
  | mine h =>
    cases h with
    | look => exact Or.inr (Snapshot.nextHeight?_eq_some_iff.mp hx)
    | @read n q r s miner now =>
      obtain ⟨a, ha, rfl⟩ := Option.map_eq_some_iff.mp hx
      obtain ⟨height, hnext, rfl⟩ := Attempt.eq_of_ofKept (MiningStart.attempt?_eq_some_iff.mp ha)
      exact Or.inl hnext
    | @notice n q r m b => exact Or.inl (m.target?_notice b ▸ hx)
    | _ => first | exact Or.inl hx | cases hx

/-- A candidate keeps its transactions, and takes them from the pool when it is made. -/
theorem Step.attempt?_cases (h : Step s e t) {a : Attempt} (ha : t.miner.attempt? = some a) :
    (∃ a', s.miner.attempt? = some a' ∧ a'.candidate = a.candidate) ∨
      ∀ tx ∈ a.candidate.transactions, ∃ id, s.node.pool.pending.get? id = some tx := by
  cases h with
  | sync h => exact Or.inl ⟨a, h.miner_eq ▸ ha, rfl⟩
  | submit => exact Or.inl ⟨a, ha, rfl⟩
  | mine h =>
    cases h with
    | @read n q r s miner now =>
      refine Or.inr fun tx htx => ?_
      obtain ⟨height, -, rfl⟩ := Attempt.eq_of_ofKept (MiningStart.attempt?_eq_some_iff.mp ha)
      obtain ⟨⟨id, tx⟩, hkept, rfl⟩ := List.mem_map.mp htx
      exact ⟨id, (n.pool.mem_oldestFirst _).mp (Snapshot.mem_of_mem_kept hkept)⟩
    | notice => exact Or.inl (MineStage.attempt?_of_notice ha)
    | _ => first | exact Or.inl ⟨a, ha, rfl⟩ | cases ha

/-- Nothing but a submission brings a transaction into the pool. -/
theorem Step.pending_cases (h : Step s e t) {id : TransactionId} {tx : Transaction}
    (hid : t.node.pool.pending.get? id = some tx) :
    s.node.pool.pending.get? id = some tx ∨ (e = some (.submitted tx) ∧ id = tx.id) := by
  cases h with
  | sync h =>
    cases h with
    | purge => exact Or.inl (Node.pending_of_forget hid)
    | _ => exact Or.inl hid
  | mine h =>
    cases h with
    | notice | evict | clear => exact Or.inl (Node.pending_of_forget hid)
    | _ => exact Or.inl hid
  | submit hadd =>
    rw [Pool.get?_add hadd] at hid
    split at hid
    · cases hid
      exact Or.inr ⟨rfl, ‹_›⟩
    · exact Or.inl hid

/-- The transactions of a fetched block leave the pool. -/
theorem Step.pending_of_purged {b : Block} (h : Step s (some (.purged b)) t) {tx : Transaction}
    (htx : tx ∈ b.transactions) : t.node.pool.pending.get? tx.id = none := by
  cases h with
  | sync h =>
    cases h with
    | purge =>
      rw [Node.forget, Pool.get?_removeAll]
      exact if_pos (List.mem_map_of_mem htx)
  | mine h => cases h

/-- A block that is mined is the candidate, and stands one above the ledger. -/
theorem Step.mined_cases {b : Block} (h : Step s (some (.mined b)) t) :
    ∃ a, s.miner.attempt? = some a ∧ b.transactions = a.candidate.transactions ∧
      a.candidate.height.toNat = s.height.toNat + 1 := by
  cases h with
  | sync h => cases h
  | mine h =>
    cases h with
    | @commit n q r a c hfound d l hcommit =>
      obtain ⟨hblock, hheight⟩ := VettedBlock.height_of_commit hcommit
      rw [← hblock] at hheight
      obtain ⟨nonce, hblock⟩ := hfound
      have htransactions : c.block.transactions = a.candidate.transactions := by rw [hblock]; rfl
      rw [hblock] at hheight
      exact ⟨a, rfl, htransactions, hheight⟩

/-- What is committed of a round is due, and what is due has left the pool in this round. -/
theorem Step.due_cases (h : Step s e t) {b : Block} (hb : b ∈ t.round.due) :
    (b ∈ s.round.due ∧ ∀ bs, e ≠ some (.fetched bs)) ∨ e = some (.purged b) := by
  cases h with
  | mine h =>
    refine Or.inl ⟨h.round_eq ▸ hb, ?_⟩
    cases h <;> nofun
  | submit => exact Or.inl ⟨hb, nofun⟩
  | sync h =>
    cases h with
    | purge =>
      rcases List.mem_append.mp hb with hb | hb
      · exact Or.inl ⟨hb, nofun⟩
      · exact Or.inr (by rw [List.mem_singleton.mp hb])
    | purged => exact Or.inl ⟨hb, nofun⟩
    | check hcheck =>
      obtain rfl := Ledger.block_of_checkBlock hcheck
      exact Or.inl ⟨hb, nofun⟩
    | commit => exact Or.inl ⟨List.mem_cons_of_mem _ hb, nofun⟩
    | _ => cases hb

theorem Step.due_of_synced {b : Block} (h : Step s (some (.synced b)) t) : b ∈ s.round.due := by
  cases h with
  | sync h =>
    cases h with
    | commit => exact List.mem_cons_self
  | mine h => cases h

end steps

section runs

variable {s t : SharedNode L} {tr : List NodeEvent}

theorem Steps.height_eq (h : Steps s tr t) : t.height.toNat = s.height.toNat + commits tr := by
  induction h with
  | nil => rfl
  | snoc _ hstep ih => rw [hstep.height_eq, ih, commits_append, Nat.add_assoc]

/-- The mining loop aims above a ledger that it has seen. -/
theorem Steps.target?_le (h : Steps s tr t) (hidle : s.miner = .idle) {x : UInt64}
    (hx : t.miner.target? = some x) : x.toNat ≤ s.height.toNat + commits tr + 1 := by
  induction h generalizing x with
  | nil =>
    rw [hidle] at hx
    cases hx
  | @snoc m t tr e hsteps hstep ih =>
    rw [commits_append]
    rcases hstep.target?_cases hx with hm | hnext
    · have hle := ih hm
      omega
    · rw [hnext, hsteps.height_eq]
      omega

theorem Steps.keyed (h : Steps s tr t) (hkeyed : s.node.pool.Keyed) : t.node.pool.Keyed := by
  induction h with
  | nil => exact hkeyed
  | snoc _ hstep ih =>
    intro id tx hid
    rcases hstep.pending_cases hid with hm | ⟨-, rfl⟩
    · exact ih id tx hm
    · rfl

/-- The transactions of a block that is due have left the pool in the round under way. -/
theorem Steps.purged_of_due (h : Steps s tr t) (hidle : s.round = .idle) {b : Block}
    (hb : b ∈ t.round.due) :
    ∃ earlier since, tr = earlier ++ .purged b :: since ∧ ∀ bs, .fetched bs ∉ since := by
  induction h with
  | nil =>
    rw [hidle] at hb
    cases hb
  | @snoc m t tr e hsteps hstep ih =>
    rcases hstep.due_cases hb with ⟨hm, hfetched⟩ | rfl
    · obtain ⟨earlier, since, rfl, hsince⟩ := ih hm
      refine ⟨earlier, since ++ e.toList, by simp, fun bs => ?_⟩
      have he : .fetched bs ∉ e.toList := fun h => hfetched bs (Option.mem_toList.mp h)
      simp [hsince bs, he]
    · exact ⟨tr, [], rfl, nofun⟩

/-- A transaction is in no pool, and the candidate holds it only if that was made for a height no
more than one above `top`. -/
structure Dropped (tx : Transaction) (top : Nat) (s : SharedNode L) : Prop where
  pending (id : TransactionId) : s.node.pool.pending.get? id ≠ some tx
  candidate {a : Attempt} : s.miner.attempt? = some a → tx ∈ a.candidate.transactions →
    a.candidate.height.toNat ≤ top + 1

theorem Dropped.step {tx : Transaction} {top : Nat} {e : Option NodeEvent}
    (h : Dropped tx top s) (hstep : Step s e t) (he : e ≠ some (.submitted tx)) :
    Dropped tx top t where
  pending id hid := by
    rcases hstep.pending_cases hid with hm | ⟨hsubmitted, -⟩
    · exact h.pending id hm
    · exact he hsubmitted
  candidate {a} ha htx := by
    rcases hstep.attempt?_cases ha with ⟨a', ha', hsame⟩ | hpooled
    · rw [← hsame] at htx ⊢
      exact h.candidate ha' htx
    · obtain ⟨id, hid⟩ := hpooled tx htx
      exact absurd hid (h.pending id)

theorem Dropped.steps {tx : Transaction} {top : Nat} (h : Dropped tx top s)
    (hsteps : Steps s tr t) (htr : .submitted tx ∉ tr) : Dropped tx top t := by
  induction hsteps with
  | nil => exact h
  | @snoc m t tr e _ hstep ih =>
    rw [List.mem_append, not_or] at htr
    exact (ih htr.1).step hstep fun he => htr.2 (by simp [he])

/-- As a transaction leaves the pool with its block, it is dropped: a candidate that still has it
was made before. -/
theorem Steps.dropped (h : Steps s tr t) (hminer : s.miner = .idle) (hkeyed : s.node.pool.Keyed)
    {b : Block} {u : SharedNode L} (hstep : Step t (some (.purged b)) u) {tx : Transaction}
    (htx : tx ∈ b.transactions) : Dropped tx (s.height.toNat + commits tr) u where
  pending id hid := by
    have hkey : id = tx.id := (h.snoc hstep).keyed hkeyed id tx hid
    rw [hkey, hstep.pending_of_purged htx] at hid
    cases hid
  candidate {a} ha _ := by
    have hle := (h.snoc hstep).target?_le hminer (MineStage.target?_of_attempt? ha)
    rwa [commits_append] at hle

/-- A dropped transaction is not in a block that is mined once the ledger stands above every height
that its candidate can have been made for. -/
theorem Dropped.not_mem_mined {tx : Transaction} {top : Nat} {b : Block} (h : Dropped tx top s)
    (hstep : Step s (some (.mined b)) t) (htop : top < s.height.toNat) : tx ∉ b.transactions := by
  intro htx
  obtain ⟨a, ha, htransactions, hnext⟩ := hstep.mined_cases
  have hmade := h.candidate ha (htransactions ▸ htx)
  omega

/-- Synchronized transactions are not mined again.  Whatever the interleaving, those of a block that a
round commits have left the pool before in the same round; and unless one of them has been submitted
since then, no block that is mined later has it. -/
theorem synced_not_mined (h : Steps s tr t) (hround : s.round = .idle) (hminer : s.miner = .idle)
    (hkeyed : s.node.pool.Keyed) {before after : List NodeEvent} {b : Block}
    (htr : tr = before ++ .synced b :: after) :
    (∃ earlier since, before = earlier ++ .purged b :: since ∧ ∀ bs, .fetched bs ∉ since) ∧
    ∀ earlier since, before = earlier ++ .purged b :: since →
      ∀ tx ∈ b.transactions, ∀ later b' rest, after = later ++ .mined b' :: rest →
        .submitted tx ∉ since ++ later → tx ∉ b'.transactions := by
  obtain ⟨m, m', hbefore, hsynced, hafter⟩ := h.split htr
  refine ⟨hbefore.purged_of_due hround hsynced.due_of_synced, ?_⟩
  intro earlier since hpurged tx htx later b' rest hmined hsubmitted
  obtain ⟨u, u', hearlier, hpurge, hsince⟩ := hbefore.split hpurged
  obtain ⟨v, v', hlater, hmine, -⟩ := hafter.split hmined
  -- from the purge to the block that is mined, nobody submits the transaction
  have hbetween : Steps u' (since ++ .synced b :: later) v := by
    simpa using (hsince.snoc hsynced).append hlater
  have hdropped : Dropped tx (s.height.toNat + commits earlier) v := by
    refine (hearlier.dropped hminer hkeyed hpurge htx).steps hbetween ?_
    simpa using hsubmitted
  have hall : Steps s (before ++ .synced b :: later) v := by
    simpa using (hbefore.snoc hsynced).append hlater
  -- the block itself is committed in between, so the ledger stands above the old candidates
  have hcount : commits earlier < commits (before ++ .synced b :: later) := by
    have hone : commits (.synced b :: later) = commits later + 1 := commits_cons _ _
    rw [hpurged, List.append_assoc, commits_append, List.cons_append, commits_cons, commits_append,
      hone]
    omega
  exact hdropped.not_mem_mined hmine (by rw [hall.height_eq]; omega)

end runs

section sample

open Ledger

/-- A block with the reward in it, that a peer has. -/
def rewardBlock : Block := ⟨⟨.zero, 1, 0, 0⟩, [sampleReward]⟩

/-- Another reward. -/
def laterReward : Transaction := { sampleReward with time := 1 }

def poolOf (pooled announced : List Transaction) : Pool :=
  ⟨.ofList (pooled.map fun tx => (tx.id, tx)), ⟨announced, 2, true⟩⟩

/-- The reward is submitted, and nothing committed. -/
def emptyNode : Node MemoryLog := ⟨.inMemory .empty, poolOf [sampleReward] [sampleReward], .absent⟩

/-- The block of the peer is committed. -/
def syncedNode : Node MemoryLog where
  ledger := ⟨⟨.ofList [(sampleMiner, 5)], rewardBlock.digest, 1⟩, [], ⟨[.ofBlock rewardBlock]⟩⟩
  pool := poolOf [] [sampleReward]
  registry := .absent

/-- The other reward is submitted. -/
def pooledNode : Node MemoryLog :=
  { syncedNode with pool := poolOf [laterReward] [sampleReward, laterReward] }

/-- The attempt that begins before the block of the peer is there. -/
def staleAttempt : Attempt :=
  ⟨⟨.zero, 1, 0, sampleMiner, [sampleReward]⟩, [sampleReward.id], false⟩

def laterAttempt : Attempt :=
  ⟨⟨rewardBlock.digest, 2, 0, sampleMiner, [laterReward]⟩, [laterReward.id], false⟩

def laterBlock : Block := laterAttempt.candidate.withNonce 0

def sampleTrace : List NodeEvent :=
  [.fetched [rewardBlock], .purged rewardBlock, .synced rewardBlock, .submitted laterReward,
    .mined laterBlock]

theorem startAttempt_emptyNode :
    emptyNode.startAttempt sampleMiner 0 = (.attempt staleAttempt, emptyNode) := by
  have hsorted : emptyNode.pool.oldestFirst = [(sampleReward.id, sampleReward)] :=
    List.mergeSort_singleton _
  rw [Node.startAttempt, hsorted]
  rfl

theorem keyed_emptyNode : emptyNode.pool.Keyed := by
  intro id tx hid
  simp [emptyNode, poolOf, SortedMap.ofList] at hid
  rw [hid.1, hid.2]

theorem removeAll_poolOf (tx : Transaction) (announced : List Transaction) :
    ((poolOf [tx] announced).removeAll [tx.id]).2 = poolOf [] announced := by
  have hpending : (SortedMap.ofList [(tx.id, tx)]).erase tx.id = .empty := by
    ext id : 1
    simp [SortedMap.ofList]
  rw [Pool.removeAll, Pool.remove]
  exact congrArg (Pool.mk · _) hpending

theorem adopt_emptyNode : emptyNode.adopt [rewardBlock] = (.ok 1, syncedNode) := by
  have hforget : emptyNode.forget [sampleReward.id] =
      { emptyNode with pool := poolOf [] [sampleReward] } := by
    rw [Node.forget, emptyNode, removeAll_poolOf]
  have hids : [rewardBlock].flatMap (·.transactionIds) = [sampleReward.id] := rfl
  rw [Node.adopt_eq, hids, hforget]
  rfl

theorem startAttempt_pooledNode :
    pooledNode.startAttempt sampleMiner 0 = (.attempt laterAttempt, pooledNode) := by
  have hsorted : pooledNode.pool.oldestFirst = [(laterReward.id, laterReward)] :=
    List.mergeSort_singleton _
  rw [Node.startAttempt, hsorted]
  rfl

theorem finishAttempt_pooledNode :
    ∃ n, pooledNode.finishAttempt laterAttempt (.ok laterBlock) = (some .committed, n) := by
  have hlink : pooledNode.ledger.snapshot.linkFault? laterBlock = none :=
    Snapshot.linkFault?_eq_none_iff.mpr ⟨Snapshot.nextHeight?_eq_some_iff.mpr rfl, rfl⟩
  have happly : pooledNode.ledger.snapshot.applyBlock laterBlock =
      .ok ⟨.ofList [(sampleMiner, 10)], rewardBlock.digest, 1⟩ := by
    rw [Snapshot.applyBlock, hlink]
    rfl
  rw [Node.finishAttempt, addBlock_eq, happly]
  exact ⟨_, rfl⟩

theorem finishAttempt_syncedNode : syncedNode.finishAttempt staleAttempt
    (.ok (staleAttempt.candidate.withNonce 0)) = (some .discarded, syncedNode) := by
  rfl

/-- The reward is pooled and in an attempt when the block of the peer takes it; the attempt fails,
and the next one has only what was submitted later. -/
theorem synced_not_mined_laterBlock :
    ∃ t, Steps ⟨emptyNode, .ofCapacity 1, .idle, .idle⟩ sampleTrace t ∧
      sampleReward ∉ laterBlock.transactions := by
  have hstale := steps_startAttempt emptyNode (.ofCapacity 1) .idle startAttempt_emptyNode
  have hsync := steps_adopt emptyNode (.ofCapacity 1) (.searching staleAttempt) adopt_emptyNode
  have hdiscard := steps_finishAttempt syncedNode (.ofCapacity 1) (.notifying [rewardBlock])
    finishAttempt_syncedNode
  have hadd : syncedNode.pool.add laterReward = (.ok laterReward.id, pooledNode.pool) := rfl
  have hsubmit : Steps ⟨syncedNode, .ofCapacity 1, .notifying [rewardBlock], .idle⟩
      [.submitted laterReward] ⟨pooledNode, .ofCapacity 1, .notifying [rewardBlock], .idle⟩ :=
    (Step.submit hadd).steps
  have hstart := steps_startAttempt pooledNode (.ofCapacity 1) (.notifying [rewardBlock])
    startAttempt_pooledNode
  obtain ⟨n, hfound⟩ := finishAttempt_pooledNode
  have hfinish := steps_finishAttempt pooledNode (.ofCapacity 1) (.notifying [rewardBlock])
    hfound
  have hrun : Steps _ sampleTrace _ :=
    ((((hstale.append hsync).append hdiscard).append hsubmit).append hstart).append hfinish
  have htrace : sampleTrace = [.fetched [rewardBlock], .purged rewardBlock] ++
      .synced rewardBlock :: [.submitted laterReward, .mined laterBlock] := rfl
  obtain ⟨-, hnever⟩ := synced_not_mined hrun rfl rfl keyed_emptyNode htrace
  exact ⟨_, hrun, hnever [_] [] rfl sampleReward (by decide) [_] laterBlock [] rfl (by decide)⟩

end sample

end SharedNode
end LedgerNode
