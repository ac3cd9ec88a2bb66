import LedgerNode.Proofs.Ledger.CatchUp
import LedgerNode.Proofs.Ledger.Reload

/-!
Transactions that come again.  A ledger does not look at ids: it takes a transaction as often as it is
offered, as long as the balances bear it.  So an id stands in the log once if it was accepted once,
and it is for those who offer transactions not to offer one again.
-/
namespace LedgerNode

/-- The ids of transactions, each as often as it occurs. -/
def Transaction.ids (txs : List Transaction) : List TransactionId := txs.map id

namespace Ledger

variable {L : Type}

/-- Every id that was accepted is in the log or waits, as often as it was accepted; and what the log
has room for is committed wherever it applies, whether its transactions are new or not. -/
structure CountsIds [BoundedLog L] (l : Ledger L) (accepted : List Transaction)
    (rs : List Record) : Prop where
  records_eq : BlockLog.records l.log = .ok rs
  count_eq (i : TransactionId) :
    (Transaction.ids (Record.transactions rs)).count i + (Transaction.ids l.pending).count i =
      (Transaction.ids accepted).count i
  nodup : (Transaction.ids accepted).Nodup →
    (Transaction.ids (Record.transactions rs) ++ Transaction.ids l.pending).Nodup
  takes_iff (limit : SizeLimit) (b : Block) (d : Digest) (m : Ledger L) :
    (l.bounded limit).addBlock b = (.ok d, m) ↔
      b.header.height.toNat = l.snapshot.height.toNat + 1 ∧ b.header.parent = l.snapshot.tip ∧
        ∃ s log, l.snapshot.applyAll b.transactions = .ok s ∧
          BlockLog.append (l.bounded limit).log (.ofBlock b) = (.ok (), log) ∧
          d = b.digest ∧ m = ⟨s.advance b.digest b.header.height, l.pending, log⟩

theorem Steps.perm_ids [BoundedLog L] {l m : Ledger L} {txs : List Transaction}
    {rs : List Record} (h : Steps l txs rs m) (hpending : l.pending = []) :
    (Transaction.ids (Record.transactions rs) ++ Transaction.ids m.pending).Perm
      (Transaction.ids txs) := by
  have hperm := h.perm
  rw [hpending, List.nil_append] at hperm
  simpa [Transaction.ids] using (hperm.map Transaction.id).symm

theorem Begins.countsIds [LawfulLog L] {b : Balances} {l : Ledger L} (h : l.Begins b)
    (hpending : l.pending = []) (es : List Event) :
    ∃ rs, (l.run es).2.CountsIds (l.run es).1.accepted rs := by
  obtain ⟨rs, -, hsteps⟩ := l.steps_run es
  have hperm := hsteps.perm_ids hpending
  refine ⟨rs, LawfulLog.records_eq (h.built.chained.steps hsteps).holds, fun i => ?_,
    hperm.nodup_iff.mpr, fun limit b d m => ?_⟩
  · rw [← List.count_append, hperm.count_eq]
  · rw [← Snapshot.nextHeight?_eq_some_iff]
    exact addBlock_eq_ok_iff

/-- Whatever is asked of a ledger that begins without blocks, in memory or with an empty file, an id is
in the log or waits exactly as often as it was accepted; so none stands in the log twice if none was
accepted twice.  The ledger itself takes every block that extends the tip and applies. -/
theorem run_countsIds :
    (∀ (b : Balances) (es : List Event), ∃ rs,
      ((inMemory b).run es).2.CountsIds ((inMemory b).run es).1.accepted rs) ∧
    ∀ (genesis log : FileEntry) (limit : SizeLimit) (g : Genesis),
      Genesis.ofFile genesis = .ok g → log = .absent ∨ log = .file [] →
      ∃ l : Ledger FileLog, load genesis log limit = (.ok l, .file []) ∧
        l.snapshot.balances = g.balances ∧
        ∀ es : List Event, ∃ rs, (l.run es).2.CountsIds (l.run es).1.accepted rs := by
  refine ⟨fun b => (begins_inMemory b).countsIds rfl, fun genesis log limit g hg hlog => ?_⟩
  have hload := load_of_empty hg hlog limit
  exact ⟨_, hload, rfl, (begins_load hg hlog (congrArg Prod.fst hload)).countsIds rfl⟩

/-- The one id that is accepted stands in the log once. -/
theorem run_countsIds_sampleRun :
    ∃ l : Ledger FileLog,
      load (Genesis.fileOf "sample" .empty) .absent none = (.ok l, .file []) ∧
      ∃ rs, BlockLog.records (l.run sampleRun).2.log = .ok rs ∧
        (Transaction.ids (Record.transactions rs)).Nodup := by
  have hg := Genesis.ofFile_fileOf "sample" .empty
  obtain ⟨l, hl, -, h⟩ := run_countsIds.2 _ .absent none _ hg (Or.inl rfl)
  cases hl.symm.trans (load_of_empty hg (Or.inl rfl) none)
  obtain ⟨rs, hrs⟩ := h sampleRun
  have haccepted : ((ofParts (.ofBalances .empty) (FileLog.mk [] none)).run sampleRun).1.accepted =
      [sampleReward] := by
    decide
  have hnodup := hrs.nodup
  rw [haccepted] at hnodup
  exact ⟨_, hl, rs, hrs.records_eq, (List.nodup_append.mp (hnodup (by simp [Transaction.ids]))).1⟩

/-- Balances that bear the payment of the spending block twice. -/
def sampleBalances : Balances := SortedMap.empty.insert sampleMiner 10

/-- The block behind the spending block, with the same payment. -/
def repeatingBlock : Block := ⟨⟨spendingBlock.digest, 2, 0, 0⟩, spendingBlock.transactions⟩

/-- A block that makes its payment twice. -/
def twofoldBlock : Block :=
  ⟨⟨.zero, 1, 0, 0⟩, spendingBlock.transactions ++ spendingBlock.transactions⟩

/-- What the ledger is after the payment was made twice, with this tip. -/
def paidTwice (tip : Digest) (height : UInt64) : Snapshot :=
  ⟨(SortedMap.empty.insert sampleMiner 0).insert sampleReceiver 10, tip, height⟩

theorem extends_repeatingBlock :
    [spendingBlock, repeatingBlock].foldlM Snapshot.extend (.ofBalances sampleBalances) =
      .ok (paidTwice repeatingBlock.digest 2) := by
  have hpaid : (Snapshot.ofBalances sampleBalances).extend spendingBlock =
      .ok ⟨(SortedMap.empty.insert sampleMiner 5).insert sampleReceiver 5, spendingBlock.digest, 1⟩ :=
    rfl
  rw [Snapshot.foldlM_extend_cons hpaid, Snapshot.foldlM_extend_cons (t := paidTwice _ 2) ?_ []]
  · rfl
  · rw [Snapshot.extend, Snapshot.applyBlock_of_extends rfl rfl]
    rfl

theorem extends_twofoldBlock :
    [twofoldBlock].foldlM Snapshot.extend (.ofBalances sampleBalances) =
      .ok (paidTwice twofoldBlock.digest 1) :=
  rfl

theorem not_nodup_ids_spendingBlock :
    ¬ (Transaction.ids (spendingBlock.transactions ++ spendingBlock.transactions)).Nodup := by
  simp [spendingBlock, Transaction.ids]

/-- A block with the payment of an earlier one is committed, and a block with one payment twice is.
Both times the log has an id twice. -/
theorem run_repeats_ids :
    ∃ l : Ledger FileLog,
      load (Genesis.fileOf "sample" sampleBalances) .absent none = (.ok l, .file []) ∧
      (∃ rs, BlockLog.records (l.run [⟨.addBlocks [spendingBlock, repeatingBlock], none⟩]).2.log =
        .ok rs ∧ ¬ (Transaction.ids (Record.transactions rs)).Nodup) ∧
      ∃ rs, BlockLog.records (l.run [⟨.addBlocks [twofoldBlock], none⟩]).2.log = .ok rs ∧
        ¬ (Transaction.ids (Record.transactions rs)).Nodup := by
  have hg := Genesis.ofFile_fileOf "sample" sampleBalances
  have hload := load_of_empty hg (Or.inl rfl) none
  have hbegins : (ofParts (.ofBalances sampleBalances) (FileLog.mk [] none)).Begins sampleBalances :=
    begins_load hg (Or.inl rfl) (congrArg Prod.fst hload)
  have hrecords {bs : List Block} {s : Snapshot}
      (hbs : bs.foldlM Snapshot.extend (.ofBalances sampleBalances) = .ok s) :
      BlockLog.records ((ofParts (.ofBalances sampleBalances) (FileLog.mk [] none)).run
        [⟨.addBlocks bs, none⟩]).2.log = .ok (bs.map Record.ofBlock) :=
    (hbegins.built_run rfl hbs).1.records_eq
  refine ⟨ofParts (.ofBalances sampleBalances) ⟨[], none⟩, hload,
    ⟨_, hrecords extends_repeatingBlock, ?_⟩, _, hrecords extends_twofoldBlock, ?_⟩
  · exact not_nodup_ids_spendingBlock
  · exact not_nodup_ids_spendingBlock

end Ledger
end LedgerNode
