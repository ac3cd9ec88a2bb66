import LedgerNode.Proofs.Ledger.Run
import LedgerNode.Proofs.Pool
import LedgerNode.Sync

/-!
What one round of synchronization does to a node.  It takes over the blocks that it fetched, as far
as they are valid, and it takes the transactions of all of them out of the pool.
-/
namespace LedgerNode

/-- The blocks in an answer to a request. -/
def Network.blocksFor (net : Network) (a : PeerAddress) : PeerCall → List Block
  | .status => []
  | .blocksAfter start =>
    match net.recordsAfter a start with
    | .ok rs => rs.map (·.block)
    | .error _ => []

/-- The blocks that peers have answered with, valid or not. -/
def SyncRound.fetched {L : Type} (net : Network) (r : SyncRound L) : List Block :=
  r.asked.flatMap fun (a, call) => net.blocksFor a call

/-- Where there is a report, it counts the blocks that were added. -/
theorem SyncReport.taking_eq_ok {report r : SyncReport} {a : PeerAddress}
    {taken : Except BatchError Nat} (h : report.taking a taken = .ok r) :
    r = { report with applied := addedCount taken, source := some a } := by
  rcases taken with ⟨applied, e | _⟩ | applied <;> cases h <;> rfl

/-- There is a report unless adding a block has panicked. -/
theorem SyncReport.taking_of_ne {taken : Except BatchError Nat}
    (h : ∀ applied, taken ≠ .error ⟨applied, .heightOverflow⟩) (report : SyncReport)
    (a : PeerAddress) :
    report.taking a taken = .ok { report with applied := addedCount taken, source := some a } := by
  rcases taken with ⟨applied, e | _⟩ | applied
  · rfl
  · exact absurd rfl (h applied)
  · rfl

/-- As many blocks are committed as the ledger counts. -/
theorem Ledger.committedBlocks_addBlocks {L : Type} [BlockLog L] (l : Ledger L) (bs : List Block) :
    committedBlocks (.addBlocks bs) (.batch (l.addBlocks bs).1) =
      bs.take (addedCount (l.addBlocks bs).1) := by
  have hcases := @addBlocksFrom_induction L _ (fun _ _ => True) (fun _ _ => trivial)
    (fun _ _ => trivial) bs [] l trivial 0
  rcases hcases with ⟨m, hm, -⟩ | ⟨k, cause, m, hm, -⟩
  · rw [addBlocks, hm]
    simp [committedBlocks, addedCount]
  · rw [addBlocks, hm]
    rfl

/-- A round that takes over the blocks it fetched, and files whom it heard of. -/
structure SyncRound.Adopts {L : Type} [BlockLog L] (n : Node L) (net : Network) (r : SyncRound L) :
    Prop where
  node : ∃ registry, r.node = { (n.adopt (r.fetched net)).2 with registry }
  committed : r.committed = (r.fetched net).take (addedCount (n.adopt (r.fetched net)).1)
  applied {report : SyncReport} :
    r.result = .ok report → report.applied = addedCount (n.adopt (r.fetched net)).1

namespace Node

variable {L : Type} [BlockLog L]

theorem adopt_eq (n : Node L) (bs : List Block) :
    n.adopt bs = ((n.ledger.addBlocks bs).1,
      { n.forget (bs.flatMap (·.transactionIds)) with ledger := (n.ledger.addBlocks bs).2 }) := by
  rw [adopt, ledger_forget]

@[simp] theorem adopt_nil (n : Node L) : n.adopt [] = (.ok 0, n) := rfl

theorem adopt_of_registry (n : Node L) (registry : FileEntry) (bs : List Block) :
    Node.adopt { n with registry } bs = ((n.adopt bs).1, { (n.adopt bs).2 with registry }) := by
  rw [adopt_eq, adopt_eq]
  rfl

omit [BlockLog L] in
theorem remember_eq (n : Node L) (limit : SizeLimit) (found : Peers) :
    ∃ registry, n.remember limit found = { n with registry } := by
  unfold remember
  split
  · exact ⟨n.registry, rfl⟩
  · exact ⟨_, rfl⟩

/-- A round asks nobody for blocks, or one peer, which it does last. -/
theorem sync_cases (n : Node L) (settings : SyncSettings) (net : Network) :
    (∃ result registry, ∃ peers : List PeerAddress,
      (∀ report, result = .ok report → report.applied = 0) ∧ n.sync settings net =
        ⟨result, [], peers.map fun b => (b, PeerCall.status), { n with registry }⟩) ∨
    ∃ registry report a, ∃ peers : List PeerAddress, n.sync settings net =
      Node.fetch { n with registry } net report (peers.map fun b => (b, PeerCall.status)) a := by
  unfold sync
  split
  · exact Or.inl ⟨.error _, n.registry, [], nofun, rfl⟩
  · extract_lets known
    split
    · exact Or.inl ⟨.ok .zero, n.registry, [], by rintro _ ⟨⟩; rfl, rfl⟩
    · rename_i d report asked m _
      obtain ⟨registry, hm⟩ := n.remember_eq settings.registryLimit d.found
      rw [show m = { n with registry } from hm]
      split
      · exact Or.inl ⟨.ok report, registry, _, by rintro _ ⟨⟩; rfl, rfl⟩
      · exact Or.inr ⟨registry, _, _, _, rfl⟩

/-- A round that fetches nothing takes nothing over. -/
theorem adopts_of_nothing {n : Node L} {net : Network} {r : SyncRound L} (registry : FileEntry)
    (hfetched : r.fetched net = []) (hnode : r.node = { n with registry })
    (hcommitted : r.committed = [])
    (happlied : ∀ {report}, r.result = .ok report → report.applied = 0) : r.Adopts n net where
  node := ⟨registry, by rw [hfetched, hnode, adopt_nil]⟩
  committed := by rw [hfetched, hcommitted, List.take_nil]
  applied h := by rw [hfetched, adopt_nil, happlied h, addedCount]

/-- Only what was fetched is taken over; requests for a status fetch nothing. -/
theorem adopts_fetch (n : Node L) (registry : FileEntry) (net : Network) (report : SyncReport)
    (as : List PeerAddress) (a : PeerAddress) :
    (Node.fetch { n with registry } net report (as.map fun a => (a, PeerCall.status)) a).Adopts
      n net := by
  unfold fetch
  simp only
  cases hanswer : net.recordsAfter a n.ledger.snapshot.tip with
  | error e =>
    refine adopts_of_nothing registry ?_ rfl rfl nofun
    simp [SyncRound.fetched, Network.blocksFor, hanswer]
  | ok rs =>
    simp only [adopt_of_registry]
    have hfetched : ∀ result committed node, SyncRound.fetched net
        (L := L) ⟨result, committed, as.map (fun a => (a, PeerCall.status)) ++
          [(a, .blocksAfter n.ledger.snapshot.tip)], node⟩ = rs.map (·.block) := by
      simp [SyncRound.fetched, Network.blocksFor, hanswer]
    refine ⟨⟨registry, ?_⟩, ?_, fun h => ?_⟩
    · rw [hfetched]
    · rw [hfetched]
    · rw [hfetched, SyncReport.taking_eq_ok h]

theorem adopts_sync (n : Node L) (settings : SyncSettings) (net : Network) :
    (n.sync settings net).Adopts n net := by
  rcases n.sync_cases settings net with
    ⟨result, registry, peers, happlied, hsync⟩ | ⟨registry, report, a, peers, hsync⟩
  · rw [hsync]
    refine adopts_of_nothing registry ?_ rfl rfl (fun {report} => happlied report)
    simp [SyncRound.fetched, Network.blocksFor]
  · rw [hsync]
    exact n.adopts_fetch registry net report peers a

theorem get?_sync (n : Node L) (settings : SyncSettings) (net : Network) (id : TransactionId) :
    (n.sync settings net).node.pool.pending.get? id =
      if id ∈ ((n.sync settings net).fetched net).flatMap (·.transactionIds) then none
      else n.pool.pending.get? id := by
  obtain ⟨registry, hnode⟩ := (n.adopts_sync settings net).node
  rw [hnode, adopt_eq]
  exact n.pool.get?_removeAll _ id

/-- Of the pool a round leaves exactly what is in none of the blocks that it fetched, committed or
not.  Where it commits all of them, nothing but what it committed is gone. -/
theorem sync_pending (n : Node L) (settings : SyncSettings) (net : Network) :
    let r := n.sync settings net
    let fetched := r.fetched net
    let outcome := n.ledger.addBlocks fetched
    r.node.ledger = outcome.2 ∧
    r.committed = committedBlocks (.addBlocks fetched) (.batch outcome.1) ∧
    (∀ report, r.result = .ok report → r.committed = fetched.take report.applied) ∧
    r.node.pool.announced = n.pool.announced ∧
    (∀ id, r.node.pool.pending.get? id =
      if id ∈ fetched.flatMap (·.transactionIds) then none else n.pool.pending.get? id) ∧
    (r.committed = fetched → ∀ id tx, n.pool.pending.get? id = some tx →
      id ∉ r.committed.flatMap (·.transactionIds) → r.node.pool.pending.get? id = some tx) := by
  intro r fetched outcome
  have hadopts : r.Adopts n net := n.adopts_sync settings net
  obtain ⟨registry, hnode⟩ := hadopts.node
  rw [adopt_eq] at hnode
  refine ⟨by rw [hnode], ?_, fun report hreport => ?_, ?_, n.get?_sync settings net,
    fun hall id tx htx hid => ?_⟩
  · rw [hadopts.committed, adopt_eq, ← Ledger.committedBlocks_addBlocks]
  · rw [hadopts.committed, hadopts.applied hreport]
  · rw [hnode]
    exact n.pool.announced_removeAll _
  · rw [hall] at hid
    rw [n.get?_sync settings net, if_neg hid, htx]

/-- A node with one transaction in its pool that knows one peer. -/
def sampleNode : Node MemoryLog where
  ledger := .inMemory .empty
  pool := ⟨.ofList [(Ledger.sampleReward.id, Ledger.sampleReward)], .ofCapacity 1⟩
  registry := .file (Text.utf8 "Nodes.p=[\"h\",1]")

/-- The peer, and the blocks it has. -/
def sampleNetwork (bs : List Block) : Network :=
  .ofList [(⟨"h", 1⟩, .ofRecords (bs.map .ofBlock) .empty)]

theorem get?_sampleNode :
    sampleNode.pool.pending.get? Ledger.sampleReward.id = some Ledger.sampleReward := by
  simp [sampleNode, SortedMap.ofList]

theorem sync_pending_sampleBlock :
    (sampleNode.sync ⟨none, none⟩ (sampleNetwork [Ledger.sampleBlock])).committed =
        [Ledger.sampleBlock] ∧
      (sampleNode.sync ⟨none, none⟩ (sampleNetwork [Ledger.sampleBlock])).node.pool.pending.get?
        Ledger.sampleReward.id = some Ledger.sampleReward := by
  have hcommitted : (sampleNode.sync ⟨none, none⟩ (sampleNetwork [Ledger.sampleBlock])).committed =
      [Ledger.sampleBlock] := by
    decide +kernel
  have hfetched : (sampleNode.sync ⟨none, none⟩ (sampleNetwork [Ledger.sampleBlock])).fetched
      (sampleNetwork [Ledger.sampleBlock]) = [Ledger.sampleBlock] := by
    decide +kernel
  obtain ⟨-, -, -, -, -, hkept⟩ :=
    sampleNode.sync_pending ⟨none, none⟩ (sampleNetwork [Ledger.sampleBlock])
  refine ⟨hcommitted, hkept (hcommitted.trans hfetched.symm) _ _ get?_sampleNode ?_⟩
  rw [hcommitted]
  simp [Block.transactionIds, Ledger.sampleBlock]

/-- A block that does not link, with the transaction that is pooled. -/
def looseBlock : Block := ⟨⟨.zero, 2, 0, 0⟩, [Ledger.sampleReward]⟩

/-- The block is not committed, and its transaction is in the pool no longer. -/
theorem sync_loses_refused :
    (sampleNode.sync ⟨none, none⟩ (sampleNetwork [looseBlock])).result =
        .ok ⟨1, 0, 0, some ⟨"h", 1⟩⟩ ∧
      (sampleNode.sync ⟨none, none⟩ (sampleNetwork [looseBlock])).committed = [] ∧
      sampleNode.pool.pending.get? Ledger.sampleReward.id = some Ledger.sampleReward ∧
      (sampleNode.sync ⟨none, none⟩ (sampleNetwork [looseBlock])).node.pool.pending.get?
        Ledger.sampleReward.id = none := by
  have hfetched : (sampleNode.sync ⟨none, none⟩ (sampleNetwork [looseBlock])).fetched
      (sampleNetwork [looseBlock]) = [looseBlock] := by
    decide +kernel
  refine ⟨by decide +kernel, by decide +kernel, get?_sampleNode, ?_⟩
  rw [sampleNode.get?_sync, hfetched]
  simp [Block.transactionIds, looseBlock]

end Node
end LedgerNode
