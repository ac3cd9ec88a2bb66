import LedgerNode.Proofs.Ledger.Load
import LedgerNode.Proofs.Ledger.Run
import LedgerNode.Proofs.Snapshot

/-!
The records of a log form one chain.  Blocks come into a log in two ways, checked against the tip or
made from it; both put a record behind the last one that names it as its parent.
-/
namespace LedgerNode

namespace Record

/-- The digest of the last record; zero stands before them all. -/
def lastDigest (rs : List Record) : Digest := (rs.getLast?.map (·.digest)).getD .zero

@[simp] theorem lastDigest_nil : lastDigest [] = .zero := rfl

@[simp] theorem lastDigest_append (rs : List Record) (r : Record) :
    lastDigest (rs ++ [r]) = r.digest := by simp [lastDigest]

/-- Every record stands on the one before it. -/
inductive IsChain : List Record → Prop
  | nil : IsChain []
  | snoc {rs : List Record} {b : Block} (hrs : IsChain rs)
      (hheight : b.header.height = UInt64.ofNat rs.length + 1)
      (hparent : b.header.parent = lastDigest rs) : IsChain (rs ++ [ofBlock b])

theorem IsChain.of_getElem? {rs : List Record} (h : IsChain rs) {i : Nat} {r : Record}
    (hr : rs[i]? = some r) :
    r.block.header.height = UInt64.ofNat i + 1 ∧
      r.block.header.parent = lastDigest (rs.take i) ∧ r.digest = r.block.digest := by
  induction h with
  | nil => simp at hr
  | @snoc rs b _ hheight hparent ih =>
    by_cases hi : i < rs.length
    · rw [List.getElem?_append_left hi] at hr
      rw [List.take_append_of_le_length (Nat.le_of_lt hi)]
      exact ih hr
    · rw [List.getElem?_append_right (Nat.le_of_not_lt hi)] at hr
      obtain ⟨hlast, rfl⟩ : i - rs.length = 0 ∧ ofBlock b = r := by
        simpa [List.getElem?_singleton] using hr
      obtain rfl : i = rs.length := by omega
      exact ⟨hheight, by simpa [ofBlock] using hparent, rfl⟩

theorem lastDigest_take_succ {rs : List Record} {i : Nat} {r : Record} (h : rs[i]? = some r) :
    lastDigest (rs.take (i + 1)) = r.digest := by
  rw [List.take_add_one, h]
  exact lastDigest_append _ _

end Record

namespace Ledger

variable {L : Type}

/-- The records of the log form one chain from the first block on, and the ledger stands at its
end. -/
structure EndsChain [BlockLog L] (l : Ledger L) (rs : List Record) : Prop where
  records_eq : BlockLog.records l.log = .ok rs
  height {i : Nat} {r : Record} : rs[i]? = some r → r.block.header.height.toNat = i + 1
  parent_first {r : Record} : rs[0]? = some r → r.block.header.parent = .zero
  parent_next {i : Nat} {r s : Record} :
    rs[i]? = some r → rs[i + 1]? = some s → s.block.header.parent = r.digest
  digest {r : Record} : r ∈ rs → r.digest = r.block.digest
  tip_empty : rs = [] → l.snapshot.tip = .zero
  tip_last {r : Record} : rs.getLast? = some r → l.snapshot.tip = r.digest
  tip_height : l.snapshot.height.toNat = rs.length

variable [LawfulLog L]

/-- The chain, and the ledger at its end, with heights as they are counted. -/
structure Chained (l : Ledger L) (rs : List Record) : Prop where
  holds : LawfulLog.Holds l.log rs
  chain : Record.IsChain rs
  tip : l.snapshot.tip = Record.lastDigest rs
  height : l.snapshot.height = UInt64.ofNat rs.length

theorem chained_ofParts (b : Balances) {log : L} (h : LawfulLog.Holds log []) :
    Chained (ofParts (.ofBalances b) log) [] :=
  ⟨h, .nil, rfl, rfl⟩

theorem Chained.advance {l : Ledger L} {rs : List Record} (h : Chained l rs) {b : Block} {log : L}
    {balances : Balances} {pending : List Transaction}
    (hheight : l.snapshot.nextHeight? = some b.header.height)
    (hparent : b.header.parent = l.snapshot.tip)
    (happend : BlockLog.append l.log (Record.ofBlock b) = (.ok (), log)) :
    Chained ⟨⟨balances, b.digest, b.header.height⟩, pending, log⟩ (rs ++ [Record.ofBlock b]) := by
  have hnext := Snapshot.eq_of_nextHeight? hheight
  rw [h.height] at hnext
  have hchain := Record.IsChain.snoc h.chain hnext (hparent.trans h.tip)
  refine ⟨LawfulLog.holds_append h.holds happend, hchain, ?_, ?_⟩
  · simp [Record.ofBlock]
  · simp [hnext]

theorem Chained.step {l m : Ledger L} {rs new : List Record} {txs : List Transaction}
    (h : Chained l rs) (hstep : Step l txs new m) : Chained m (rs ++ new) := by
  cases hstep with
  | limited limit =>
    rw [List.append_nil]
    exact ⟨LawfulLog.holds_bounded limit h.holds, h.chain, h.tip, h.height⟩
  | refused happend =>
    obtain rfl := LawfulLog.eq_of_refused happend
    rwa [List.append_nil]
  | added happly =>
    obtain ⟨b, -, rfl⟩ := Snapshot.apply_eq_ok happly
    rw [List.append_nil]
    exact ⟨h.holds, h.chain, h.tip, h.height⟩
  | committed happly happend =>
    obtain ⟨hheight, hparent, -⟩ := Snapshot.applyBlock_eq_ok happly
    exact h.advance hheight hparent happend
  | persisted _ hblock happend =>
    obtain ⟨height, hheight, rfl⟩ := pendingBlock?_eq_some_iff.mp hblock
    exact h.advance hheight rfl happend

theorem Chained.steps {l m : Ledger L} {rs new : List Record} {txs : List Transaction}
    (h : Chained l rs) (hsteps : Steps l txs new m) : Chained m (rs ++ new) := by
  induction hsteps generalizing rs with
  | nil l => rwa [List.append_nil]
  | cons hstep _ ih =>
    rw [← List.append_assoc]
    exact ih (h.step hstep)

/-- The height of a block is its place in the chain, as far as heights reach. -/
theorem Chained.endsChain {l : Ledger L} {rs : List Record} (h : Chained l rs)
    (hlen : rs.length < 2 ^ 64) : EndsChain l rs where
  records_eq := LawfulLog.records_eq h.holds
  height {i r} hr := by
    have hi : i < rs.length := (List.getElem?_eq_some_iff.mp hr).1
    rw [(h.chain.of_getElem? hr).1, UInt64.toNat_add]
    simp
    omega
  parent_first {r} hr := by simpa using (h.chain.of_getElem? hr).2.1
  parent_next {i r s} hr hs := by
    rw [(h.chain.of_getElem? hs).2.1, Record.lastDigest_take_succ hr]
  digest {r} hr := by
    obtain ⟨i, hi⟩ := List.getElem?_of_mem hr
    exact (h.chain.of_getElem? hi).2.2
  tip_empty hrs := by rw [h.tip, hrs, Record.lastDigest_nil]
  tip_last {r} hr := by rw [h.tip, Record.lastDigest, hr]; rfl
  tip_height := by
    rw [h.height]
    simpa using Nat.mod_eq_of_lt hlen

theorem endsChain_run {l : Ledger L} (h : Chained l []) (es : List Event)
    (hcommits : (l.run es).1.commits < 2 ^ 64) :
    ∃ rs, (l.run es).2.EndsChain rs ∧ rs.length = (l.run es).1.commits := by
  obtain ⟨rs, hlen, hsteps⟩ := l.steps_run es
  have hchained : Chained (l.run es).2 rs := h.steps hsteps
  exact ⟨rs, hchained.endsChain (by omega), hlen⟩

/-- Whatever is asked of a ledger that begins without blocks, in memory or with an empty file, the
records of its log form one chain that the ledger stands at the end of. -/
theorem run_endsChain :
    (∀ (b : Balances) (es : List Event), ((inMemory b).run es).1.commits < 2 ^ 64 →
      ∃ rs, ((inMemory b).run es).2.EndsChain rs ∧ rs.length = ((inMemory b).run es).1.commits) ∧
    ∀ (genesis log : FileEntry) (limit : SizeLimit) (g : Genesis),
      Genesis.ofFile genesis = .ok g → log = .absent ∨ log = .file [] →
      ∃ l : Ledger FileLog, load genesis log limit = (.ok l, .file []) ∧
        l.snapshot.balances = g.balances ∧
        ∀ es : List Event, (l.run es).1.commits < 2 ^ 64 →
          ∃ rs, (l.run es).2.EndsChain rs ∧ rs.length = (l.run es).1.commits := by
  refine ⟨fun b es hcommits => ?_, fun genesis log limit g hg hlog => ?_⟩
  · exact endsChain_run (chained_ofParts b rfl) es hcommits
  · refine ⟨_, load_of_empty hg hlog limit, rfl, fun es hcommits => ?_⟩
    exact endsChain_run (chained_ofParts g.balances rfl) es hcommits

theorem run_endsChain_sampleRun :
    (∃ rs, ((inMemory .empty).run sampleRun).2.EndsChain rs ∧ rs.length = 1) ∧
    ∃ l : Ledger FileLog,
      load (Genesis.fileOf "sample" .empty) .absent none = (.ok l, .file []) ∧
      ∃ rs, (l.run sampleRun).2.EndsChain rs ∧ rs.length = 1 := by
  have hmemory : ((inMemory .empty).run sampleRun).1.commits = 1 := by decide
  have hfile :
      ((ofParts (.ofBalances .empty) (FileLog.mk [] none)).run sampleRun).1.commits = 1 := by
    decide
  constructor
  · obtain ⟨rs, hrs, hlen⟩ := run_endsChain.1 .empty sampleRun (by omega)
    exact ⟨rs, hrs, hlen.trans hmemory⟩
  · have hg := Genesis.ofFile_fileOf "sample" .empty
    obtain ⟨l, hl, -, h⟩ := run_endsChain.2 _ .absent none _ hg (Or.inl rfl)
    cases hl.symm.trans (load_of_empty hg (Or.inl rfl) none)
    obtain ⟨rs, hrs, hlen⟩ := h sampleRun (by rw [hfile]; decide)
    exact ⟨_, hl, rs, hrs, hlen.trans hfile⟩

end Ledger
end LedgerNode
