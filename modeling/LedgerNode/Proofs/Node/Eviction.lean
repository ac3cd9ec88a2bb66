import LedgerNode.Proofs.Balances
import LedgerNode.Proofs.Ledger.Reload
import LedgerNode.Proofs.Node.Candidate
import LedgerNode.Proofs.Node.Notices

/-!
What the mining loop evicts.  It looks at the ledger before it reads the pool, so a transaction that is
submitted in between is tried on a ledger that is older than itself, and evicted if it does not apply
there.  Any other transaction stays while it applies to the ledger and stands apart from what else is
pooled, as long as no block has it.
-/
namespace LedgerNode

/-- The transaction names the account. -/
def Transaction.mentions (tx : Transaction) (a : Account) : Bool := tx.sender == a || tx.receiver == a

/-- The other transaction names neither account of this one. -/
def Transaction.isApartFrom (tx other : Transaction) : Bool :=
  !other.mentions tx.sender && !other.mentions tx.receiver

namespace Balances

/-- A transaction leaves alone the amounts of accounts that it does not name. -/
theorem amountOf_of_apply {b c : Balances} {tx : Transaction} (h : b.apply tx = .ok c) {a : Account}
    (ha : tx.mentions a = false) : c.amountOf a = b.amountOf a := by
  obtain ⟨hsender, hreceiver⟩ : a ≠ tx.sender ∧ a ≠ tx.receiver := by
    rw [Transaction.mentions, Bool.or_eq_false_iff, beq_eq_false_iff_ne, beq_eq_false_iff_ne] at ha
    exact ⟨ha.1.symm, ha.2.symm⟩
  rcases apply_cases h with ⟨-, -, sum, -, rfl⟩ | ⟨-, -, rfl⟩ | ⟨-, -, -, sum, -, rfl⟩
  · rw [amountOf_insert, if_neg hreceiver]
  · rfl
  · rw [amountOf_insert, if_neg hreceiver, amountOf_insert, if_neg hsender]

/-- Whether a transaction applies is a matter of what its own accounts have. -/
theorem isOk_apply_congr {b c : Balances} {tx : Transaction}
    (hsender : b.amountOf tx.sender = c.amountOf tx.sender)
    (hreceiver : b.amountOf tx.receiver = c.amountOf tx.receiver) :
    (b.apply tx).isOk = (c.apply tx).isOk := by
  simp only [apply, credit, hsender, hreceiver]
  cases checkedAdd (c.amountOf tx.receiver) tx.value <;> split <;> split <;> try rfl
  all_goals split <;> rfl

end Balances

namespace Snapshot

/-- The transaction applies. -/
def accepts (s : Snapshot) (tx : Transaction) : Bool := (s.apply tx).isOk

theorem accepts_eq (s : Snapshot) (tx : Transaction) : s.accepts tx = (s.balances.apply tx).isOk := by
  rw [accepts, apply]
  cases s.balances.apply tx <;> rfl

/-- It makes no difference to a transaction when another is applied that stands apart from it. -/
theorem accepts_of_apply {s t : Snapshot} {tx other : Transaction} (h : s.apply other = .ok t)
    (hapart : tx.isApartFrom other = true) : t.accepts tx = s.accepts tx := by
  obtain ⟨b, hb, rfl⟩ := apply_eq_ok h
  obtain ⟨hsender, hreceiver⟩ :
      other.mentions tx.sender = false ∧ other.mentions tx.receiver = false := by
    simpa [Transaction.isApartFrom] using hapart
  rw [accepts_eq, accepts_eq]
  exact Balances.isOk_apply_congr (Balances.amountOf_of_apply hb hsender)
    (Balances.amountOf_of_apply hb hreceiver)

/-- A transaction that stands apart from the others is evicted exactly where it does not apply by
itself. -/
theorem mem_evicted_iff {s : Snapshot} {es : List (TransactionId × Transaction)}
    {id : TransactionId} {tx : Transaction} (hids : (es.map (·.1)).Nodup) (hin : (id, tx) ∈ es)
    (hapart : ∀ e ∈ es, e.1 ≠ id → tx.isApartFrom e.2 = true) :
    id ∈ (s.sift es).evicted ↔ s.accepts tx = false := by
  induction es generalizing s with
  | nil => cases hin
  | cons e es ih =>
    obtain ⟨hnew, hrest⟩ := List.nodup_cons.mp hids
    have hgone (t : Snapshot) : (t.sift es).evicted ⊆ es.map (·.1) := fun i hi =>
      (t.sift_perm es).subset (List.mem_append_right _ hi)
    rw [sift]
    by_cases he : e = (id, tx)
    · subst he
      cases happly : s.apply tx with
      | ok t =>
        have hnot : id ∉ (t.sift es).evicted := fun h => hnew (hgone t h)
        simp [accepts, happly, hnot, Except.isOk, Except.toBool]
      | error cause => simp [accepts, happly, Except.isOk, Except.toBool]
    · have hin' : (id, tx) ∈ es := (List.mem_cons.mp hin).resolve_left (Ne.symm he)
      have hne : e.1 ≠ id := by
        rintro rfl
        exact hnew (List.mem_map_of_mem (f := (·.1)) hin')
      have hothers := fun e' he' => hapart e' (List.mem_cons_of_mem e he')
      cases happly : s.apply e.2 with
      | ok t =>
        have hsame := accepts_of_apply happly (hapart e List.mem_cons_self hne)
        rw [← hsame]
        exact ih hrest hin' hothers
      | error cause => simpa [Ne.symm hne] using ih hrest hin' hothers

end Snapshot

/-- The blocks of a round, at whatever stage of it they are. -/
def SyncStage.blocks : SyncStage → List Block
  | idle | crashed _ => []
  | purging done left | adding done left => done ++ left
  | committing done c left => done ++ c.block :: left
  | notifying left => left

/-- Nothing that the mining loop has in hand makes it take the transaction out of the pool: a snapshot
that it is to try pooled transactions on accepts this one, it is not about to evict it, and it knows
it for one of the candidate if it is to drop it with that. -/
def MineStage.Spares (tx : Transaction) : MineStage → Prop
  | idle | crashed => True
  | looked s => s.accepts tx = true
  | evicting start left =>
    tx.id ∉ left ∧ ∀ a, start = .attempt a → tx.id ∈ a.ids → tx ∈ a.candidate.transactions
  | searching a | committing a _ _ => tx.id ∈ a.ids → tx ∈ a.candidate.transactions
  | clearing a => tx.id ∉ a.ids

namespace SharedNode

variable {L : Type}

/-- The blocks that one loop or the other still takes transactions out of the pool for. -/
def blocks (s : SharedNode L) : List Block := s.notices.waiting ++ s.round.blocks

/-- The transaction applies to the ledger, and stands apart from what else is pooled. -/
structure Carries (tx : Transaction) (s : SharedNode L) : Prop where
  accepts : s.node.ledger.snapshot.accepts tx = true
  apart {id : TransactionId} {other : Transaction} :
    s.node.pool.pending.get? id = some other → id ≠ tx.id → tx.isApartFrom other = true

/-- Reading the pool, the mining loop evicts a transaction that stands apart exactly where the snapshot
that it has looked at does not accept it. -/
theorem mem_evicted_iff {n : Node L} {tx : Transaction} (s : Snapshot)
    (hpooled : n.pool.pending.get? tx.id = some tx)
    (hapart : ∀ id other, n.pool.pending.get? id = some other → id ≠ tx.id →
      tx.isApartFrom other = true) :
    tx.id ∈ (s.sift n.pool.oldestFirst).evicted ↔ s.accepts tx = false :=
  Snapshot.mem_evicted_iff n.pool.nodup_oldestFirst ((n.pool.mem_oldestFirst _).mpr hpooled)
    fun e he => hapart e.1 e.2 ((n.pool.mem_oldestFirst e).mp he)

variable [BlockLog L]

section steps

variable {s t : SharedNode L} {e : Option NodeEvent} {tx : Transaction}

/-- Blocks come to the loops only as they are fetched. -/
theorem Step.blocks_cases (h : Step s e t) {b : Block} (hb : b ∈ t.blocks) :
    b ∈ s.blocks ∨ ∃ bs, e = some (.fetched bs) ∧ b ∈ bs := by
  cases h with
  | submit => exact Or.inl hb
  | mine h =>
    cases h with
    | @notice n q r m c q' hwaiting hreceive =>
      left
      simp only [blocks, (Queue.waiting_of_receive hreceive).1, List.cons_append]
      exact List.mem_cons_of_mem c hb
    | crash => exact Or.inl (List.mem_append_right _ hb)
    | _ => exact Or.inl hb
  | sync h =>
    cases h with
    | fetch bs =>
      rcases List.mem_append.mp hb with hb | hb
      · exact Or.inl (List.mem_append_left _ hb)
      · exact Or.inr ⟨bs, rfl, by simpa [SyncStage.blocks] using hb⟩
    | check hcheck =>
      obtain rfl := Ledger.block_of_checkBlock hcheck
      exact Or.inl hb
    | notify hsend =>
      obtain ⟨-, rfl⟩ := (Queue.send?_eq_some_iff _ _ _).mp hsend
      left
      simpa [blocks, SyncStage.blocks] using hb
    | _ =>
      left
      simp only [blocks, SyncStage.blocks, List.mem_append, List.mem_cons, List.not_mem_nil] at hb ⊢
      tauto

/-- A pooled transaction stays, unless a block or the mining loop takes it out. -/
theorem Step.pooled (h : Step s e t) (hpooled : s.node.pool.pending.get? tx.id = some tx)
    (hblocks : ∀ b ∈ s.blocks, tx.id ∉ b.transactionIds) (hspares : s.miner.Spares tx) :
    t.node.pool.pending.get? tx.id = some tx := by
  have hforget {n : Node L} {ids : List TransactionId}
      (hn : n.pool.pending.get? tx.id = some tx) (hids : tx.id ∉ ids) :
      (n.forget ids).pool.pending.get? tx.id = some tx := by
    rw [Node.forget, Pool.get?_removeAll, if_neg hids, hn]
  cases h with
  | @submit n q r m u id p hadd =>
    rw [Pool.get?_add hadd]
    split
    · rename_i hsame
      -- the pool does not take a transaction of an identity that it has
      have hcontains : n.pool.contains u.id = true := by
        rw [← hsame]
        exact Option.isSome_iff_exists.mpr ⟨tx, hpooled⟩
      rw [Pool.add, if_pos hcontains] at hadd
      cases hadd
    · exact hpooled
  | sync h =>
    cases h with
    | @purge n q done b left m =>
      refine hforget hpooled (hblocks b (List.mem_append_right _ ?_))
      exact List.mem_append_right _ List.mem_cons_self
    | _ => exact hpooled
  | mine h =>
    cases h with
    | @notice n q r m b q' hwaiting hreceive =>
      refine hforget hpooled (hblocks b (List.mem_append_left _ ?_))
      rw [(Queue.waiting_of_receive hreceive).1]
      exact List.mem_cons_self
    | @evict n q r a id left =>
      exact hforget hpooled fun hid => hspares.1 (List.mem_singleton.mp hid ▸ List.mem_cons_self)
    | clear => exact hforget hpooled hspares
    | _ => exact hpooled

/-- While the ledger accepts the transaction, and until a block with it is mined, the mining loop comes
by nothing that would make it take the transaction out. -/
theorem Step.spares (h : Step s e t) (hcarries : s.Carries tx)
    (hpooled : s.node.pool.pending.get? tx.id = some tx) (hspares : s.miner.Spares tx)
    (hmined : ∀ b, e = some (.mined b) → tx ∉ b.transactions) : t.miner.Spares tx := by
  cases h with
  | submit => exact hspares
  | sync h =>
    rw [h.miner_eq]
    exact hspares
  | mine h =>
    cases h with
    | look => exact hcarries.accepts
    | @read n q r s miner now =>
      constructor
      · rw [mem_evicted_iff s hpooled fun _ _ => hcarries.apart]
        exact Bool.not_eq_false _ ▸ hspares
      · intro a ha hid
        obtain ⟨height, -, rfl⟩ := Attempt.eq_of_ofKept ha
        obtain ⟨⟨id, u⟩, hkept, hsame : id = tx.id⟩ := List.mem_map.mp hid
        have hu : n.pool.pending.get? id = some u :=
          (n.pool.mem_oldestFirst _).mp (Snapshot.mem_of_mem_kept hkept)
        rw [hsame, hpooled] at hu
        obtain rfl := Option.some.inj hu
        exact List.mem_map.mpr ⟨_, hkept, rfl⟩
    | evict => exact ⟨fun h => hspares.1 (List.mem_cons_of_mem _ h), hspares.2⟩
    | search => exact hspares.2 _ rfl
    | check => exact hspares
    | @commit n q r a c hfound d l hcommit =>
      intro hid
      obtain ⟨nonce, hblock⟩ := hfound
      refine hmined c.block rfl ?_
      rw [hblock]
      exact hspares hid
    | @notice n q r m b q' hwaiting =>
      cases m with
      | searching a => exact hspares
      | _ => exact hspares
    | hear => exact hspares
    | skip | abandon | refuse | clear | crash => trivial

end steps

/-- Steps in order, through states that all have a property. -/
inductive StepsIn (P : SharedNode L → Prop) :
    SharedNode L → List NodeEvent → SharedNode L → Prop
  | nil {s : SharedNode L} (hs : P s) : StepsIn P s [] s
  | snoc {s m t : SharedNode L} {tr : List NodeEvent} {e : Option NodeEvent}
      (hsteps : StepsIn P s tr m) (hstep : Step m e t) (ht : P t) : StepsIn P s (tr ++ e.toList) t

section runs

variable {P : SharedNode L → Prop} {s t : SharedNode L} {tr : List NodeEvent}

theorem StepsIn.steps (h : StepsIn P s tr t) : Steps s tr t := by
  induction h with
  | nil _ => exact .nil _
  | snoc _ hstep _ ih => exact ih.snoc hstep

theorem StepsIn.last (h : StepsIn P s tr t) : P t := by
  cases h with
  | nil hs => exact hs
  | snoc _ _ ht => exact ht

/-- A round of synchronization brings a block that is refused. -/
theorem stepsIn_refused {n : Node L} {b : Block} {cause : LedgerError} (q : Queue Block)
    (m : MineStage) (hcheck : Ledger.checkBlock n.ledger.snapshot b = .error (.error cause))
    (hbefore : ∀ r, P ⟨n, q, r, m⟩) (hafter : ∀ r, P ⟨n.forget b.transactionIds, q, r, m⟩) :
    StepsIn P ⟨n, q, .idle, m⟩ [.fetched [b], .purged b]
      ⟨n.forget b.transactionIds, q, .idle, m⟩ := by
  have hfetched := (StepsIn.nil (hbefore .idle)).snoc (.sync (.fetch [b])) (hbefore _)
  have hpurged := (hfetched.snoc (.sync .purge) (hafter _)).snoc (.sync .purged) (hafter _)
  exact (hpurged.snoc (.sync (.reject hcheck)) (hafter _)).snoc (.sync .notified) (hafter _)

/-- The blocks that the loops have come by were there, or were fetched. -/
theorem Steps.blocks_cases (h : Steps s tr t) {b : Block} (hb : b ∈ t.blocks) :
    b ∈ s.blocks ∨ ∃ bs, .fetched bs ∈ tr ∧ b ∈ bs := by
  induction h with
  | nil => exact Or.inl hb
  | snoc _ hstep ih =>
    rcases hstep.blocks_cases hb with hm | ⟨bs, rfl, hbs⟩
    · rcases ih hm with hs | ⟨bs, hbs, hin⟩
      · exact Or.inl hs
      · exact Or.inr ⟨bs, List.mem_append_left _ hbs, hin⟩
    · exact Or.inr ⟨bs, by simp, hbs⟩

/-- A pooled transaction that applies to the ledger at every moment, and stands apart from what else is
pooled, stays as long as no block has it, whatever steps the node takes.  Only what the mining loop
has in hand when the transaction comes in can tell against it: reading the pool, the loop evicts the
transaction exactly where it does not apply to the snapshot that was looked at before. -/
theorem pooled_of_accepted {tx : Transaction} (h : StepsIn (Carries tx) s tr t)
    (hpooled : s.node.pool.pending.get? tx.id = some tx)
    (hblocks : ∀ b ∈ s.blocks, tx.id ∉ b.transactionIds)
    (hfetched : ∀ bs, .fetched bs ∈ tr → ∀ b ∈ bs, tx.id ∉ b.transactionIds)
    (hmined : ∀ b, .mined b ∈ tr → tx ∉ b.transactions) :
    (s.miner.Spares tx → t.node.pool.pending.get? tx.id = some tx) ∧
    ∀ old, t.miner = .looked old → t.node.pool.pending.get? tx.id = some tx →
      (tx.id ∈ (old.sift t.node.pool.oldestFirst).evicted ↔ old.accepts tx = false) := by
  constructor
  · intro hspares
    suffices t.node.pool.pending.get? tx.id = some tx ∧ t.miner.Spares tx from this.1
    induction h with
    | nil => exact ⟨hpooled, hspares⟩
    | @snoc m u tr e hsteps hstep hu ih =>
      obtain ⟨hpooled', hspares'⟩ := ih
        (fun bs hbs => hfetched bs (List.mem_append_left _ hbs))
        fun b hb => hmined b (List.mem_append_left _ hb)
      have hblocks' : ∀ b ∈ m.blocks, tx.id ∉ b.transactionIds := by
        intro b hb
        rcases hsteps.steps.blocks_cases hb with hs | ⟨bs, hbs, hin⟩
        · exact hblocks b hs
        · exact hfetched bs (List.mem_append_left _ hbs) b hin
      refine ⟨hstep.pooled hpooled' hblocks' hspares',
        hstep.spares hsteps.last hpooled' hspares' fun b hb => hmined b (by simp [hb])⟩
  · intro old _ hpooled'
    exact mem_evicted_iff old hpooled' fun _ _ => h.last.apart

end runs

section sample

open Ledger

/-- A payment out of the reward that a peer has mined. -/
def payment : Transaction := ⟨sampleMiner, sampleReceiver, 5, .other, 0⟩

/-- The payment is pooled behind the block that it spends from. -/
def payingNode : Node MemoryLog :=
  { syncedNode with pool := poolOf [payment] [sampleReward, payment] }

/-- The payment has left the pool. -/
def unpaidNode : Node MemoryLog :=
  { syncedNode with pool := poolOf [] [sampleReward, payment] }

theorem oldestFirst_payingNode : payingNode.pool.oldestFirst = [(payment.id, payment)] :=
  List.mergeSort_singleton _

theorem get?_payingNode (id : TransactionId) :
    payingNode.pool.pending.get? id = if id = payment.id then some payment else none := by
  simp [payingNode, poolOf, SortedMap.ofList, SortedMap.get?_insert]

theorem forget_payingNode : payingNode.forget [payment.id] = unpaidNode := by
  rw [Node.forget, payingNode, removeAll_poolOf]
  rfl

variable (q : Queue Block) (r : SyncStage) (m : MineStage)

theorem carries_payingNode : Carries payment ⟨payingNode, q, r, m⟩ where
  accepts := rfl
  apart {id other} hid hne := by
    rw [get?_payingNode, if_neg hne] at hid
    cases hid

theorem carries_unpaidNode : Carries payment ⟨unpaidNode, q, r, m⟩ where
  accepts := rfl
  apart {id other} hid _ := by cases hid

/-- A round of synchronization brings the block of the peer. -/
theorem steps_rewardBlock : Steps ⟨emptyNode, .ofCapacity 1, .idle, m⟩ (syncTrace rewardBlock)
    ⟨syncedNode, ⟨[rewardBlock], 1, true⟩, .idle, m⟩ := by
  have hsync := steps_adopt emptyNode (.ofCapacity 1) m adopt_emptyNode
  have hsend : (Queue.ofCapacity 1).send? rewardBlock = some ⟨[rewardBlock], 1, true⟩ := rfl
  exact (hsync.append (Step.sync (.notify hsend)).steps).append (Step.sync .notified).steps

theorem step_payment :
    Step ⟨syncedNode, q, r, m⟩ (some (.submitted payment)) ⟨payingNode, q, r, m⟩ :=
  have hadd : syncedNode.pool.add payment = (.ok payment.id, payingNode.pool) := rfl
  .submit hadd

/-- The mining loop reads the pool with the payment in it, but looked at the ledger when that had nothing
to spend. -/
theorem stepsIn_stale :
    StepsIn (Carries payment) ⟨payingNode, q, r, .looked emptyNode.ledger.snapshot⟩ []
      ⟨unpaidNode, q, r, .idle⟩ := by
  have hread := Step.mine (.read (n := payingNode) (q := q) (r := r)
    (s := emptyNode.ledger.snapshot) sampleMiner 0)
  rw [oldestFirst_payingNode] at hread
  have hevict : Step ⟨payingNode, q, r, .evicting .nothing [payment.id]⟩ none
      ⟨payingNode.forget [payment.id], q, r, .evicting .nothing []⟩ := .mine .evict
  rw [forget_payingNode] at hevict
  have hpaying := (StepsIn.nil (carries_payingNode q r _)).snoc hread (carries_payingNode ..)
  have hunpaid := hpaying.snoc hevict (carries_unpaidNode ..)
  exact hunpaid.snoc (.mine .skip) (carries_unpaidNode ..)

/-- A peer sends a block with the payment in it, that does not extend the ledger. -/
theorem stepsIn_spendingBlock :
    StepsIn (Carries payment) ⟨payingNode, q, .idle, m⟩
      [.fetched [spendingBlock], .purged spendingBlock] ⟨unpaidNode, q, .idle, m⟩ := by
  have hforget : payingNode.forget spendingBlock.transactionIds = unpaidNode := forget_payingNode
  have hround := stepsIn_refused (P := Carries payment) (n := payingNode) (b := spendingBlock) q m
    rfl (carries_payingNode q · m) (hforget ▸ (carries_unpaidNode q · m))
  rwa [hforget] at hround

/-- A block is fetched that has no transactions and does not extend the ledger, and then an attempt looks
at the ledger: the payment is still pooled, and will not be evicted. -/
theorem pooled_of_accepted_payment :
    ∃ t, StepsIn (Carries payment) ⟨payingNode, .ofCapacity 1, .idle, .idle⟩
        [.fetched [sampleBlock], .purged sampleBlock] t ∧
      t.miner = .looked t.node.ledger.snapshot ∧
      t.node.pool.pending.get? payment.id = some payment ∧
      payment.id ∉ (t.node.ledger.snapshot.sift t.node.pool.oldestFirst).evicted := by
  have hforget : payingNode.forget sampleBlock.transactionIds = payingNode := Node.forget_nil _
  have hround := stepsIn_refused (P := Carries payment) (n := payingNode) (b := sampleBlock)
    (.ofCapacity 1) .idle rfl (carries_payingNode _ · _) (hforget.symm ▸ (carries_payingNode _ · _))
  rw [hforget] at hround
  have hlooked := hround.snoc (.mine .look) (carries_payingNode ..)
  obtain ⟨hstays, hevicted⟩ := pooled_of_accepted hlooked (by rw [get?_payingNode, if_pos rfl])
    (fun _ hb => absurd hb List.not_mem_nil) (by simp [sampleBlock, Block.transactionIds]) (by simp)
  have hpooled := hstays trivial
  refine ⟨_, hlooked, rfl, hpooled, fun h => ?_⟩
  have hrefused := (hevicted _ rfl hpooled).mp h
  exact absurd (hrefused.symm.trans hlooked.last.accepts) Bool.false_ne_true

/-- A payment that applies from when it is submitted, and has the pool for itself, and yet is gone at the
end of the attempt: once because the attempt looked at the ledger before the block that it spends from,
and once because a peer sent it meanwhile in a block that is refused. -/
theorem accepted_evicted :
    (∃ s t, Steps ⟨emptyNode, .ofCapacity 1, .idle, .idle⟩
        (syncTrace rewardBlock ++ [.submitted payment]) s ∧
      s.miner = .looked emptyNode.ledger.snapshot ∧
      s.node.pool.pending.get? payment.id = some payment ∧
      StepsIn (Carries payment) s [] t ∧ t.miner = .idle ∧
      t.node.pool.pending.get? payment.id = none) ∧
    ∃ s t, Steps ⟨emptyNode, .ofCapacity 1, .idle, .idle⟩
        (syncTrace rewardBlock ++ [.submitted payment]) s ∧
      s.miner = .looked s.node.ledger.snapshot ∧
      s.node.pool.pending.get? payment.id = some payment ∧
      StepsIn (Carries payment) s [.fetched [spendingBlock], .purged spendingBlock] t ∧
      t.miner = .idle ∧ t.node.pool.pending.get? payment.id = none := by
  have hpooled : payingNode.pool.pending.get? payment.id = some payment := by
    rw [get?_payingNode, if_pos rfl]
  constructor
  · have hlook : Steps ⟨emptyNode, .ofCapacity 1, .idle, .idle⟩ []
        ⟨emptyNode, .ofCapacity 1, .idle, .looked emptyNode.ledger.snapshot⟩ :=
      (Step.mine .look).steps
    exact ⟨_, _, (hlook.append (steps_rewardBlock _)).snoc (step_payment ..), rfl, hpooled,
      stepsIn_stale .., rfl, rfl⟩
  · have hlook := (steps_rewardBlock .idle).snoc (.mine .look)
    have hread := Step.mine (.read (n := unpaidNode) (q := ⟨[rewardBlock], 1, true⟩) (r := .idle)
      (s := syncedNode.ledger.snapshot) sampleMiner 0)
    rw [show unpaidNode.pool.oldestFirst = [] from List.mergeSort_nil] at hread
    exact ⟨_, _, hlook.snoc (step_payment ..), rfl, hpooled,
      ((stepsIn_spendingBlock ..).snoc hread (carries_unpaidNode ..)).snoc (.mine .skip)
        (carries_unpaidNode ..), rfl, rfl⟩

end sample

end SharedNode
end LedgerNode
