import LedgerNode.Proofs.Ledger.Run

/-!
Ledgers with logs of different kinds.  Where one log can be taken for another, because appending to it
and reading it come to the same, a ledger does not show which of them it has.
-/
namespace LedgerNode

/-- Going over to another kind of log, and appending and reading there, is no different. -/
structure BlockLog.Twins {M L : Type} [BlockLog M] [BlockLog L] (f : M → L) : Prop where
  append_eq (log : M) (r : Record) : append (f log) r = ((append log r).1, f (append log r).2)
  records_eq (log : M) : records (f log) = records log

namespace Ledger

variable {M L : Type}

/-- The ledger with its log replaced. -/
def mapLog (f : M → L) (l : Ledger M) : Ledger L := ⟨l.snapshot, l.pending, f l.log⟩

theorem add_mapLog (f : M → L) (l : Ledger M) (tx : Transaction) :
    (l.mapLog f).add tx = ((l.add tx).1, (l.add tx).2.mapLog f) := by
  have hsnapshot : (l.mapLog f).snapshot = l.snapshot := rfl
  rw [add, add, hsnapshot]
  cases l.snapshot.apply tx <;> rfl

variable [BlockLog M] [BlockLog L] {f : M → L} (hf : BlockLog.Twins f)
include hf

theorem promote_mapLog (l : Ledger M) (b : Block) (s : Snapshot) :
    (l.mapLog f).promote b s = ((l.promote b s).1, (l.promote b s).2.mapLog f) := by
  have happend := hf.append_eq l.log (Record.ofBlock b)
  rw [promote, promote, show (l.mapLog f).log = f l.log from rfl, happend]
  rcases BlockLog.append l.log (Record.ofBlock b) with ⟨e | ⟨⟩, log⟩ <;> rfl

theorem addBlock_mapLog (l : Ledger M) (b : Block) :
    (l.mapLog f).addBlock b = ((l.addBlock b).1, (l.addBlock b).2.mapLog f) := by
  have hsnapshot : (l.mapLog f).snapshot = l.snapshot := rfl
  rw [addBlock_eq, addBlock_eq, hsnapshot]
  cases l.snapshot.applyBlock b with
  | ok s => exact l.promote_mapLog hf b s
  | error e => rfl

theorem addBlocksFrom_mapLog (l : Ledger M) (bs : List Block) (n : Nat) :
    (l.mapLog f).addBlocksFrom n bs =
      ((l.addBlocksFrom n bs).1, (l.addBlocksFrom n bs).2.mapLog f) := by
  induction bs generalizing l n with
  | nil => rfl
  | cons b bs ih =>
    rw [addBlocksFrom, addBlocksFrom, l.addBlock_mapLog hf]
    rcases l.addBlock b with ⟨e | d, m⟩
    · rfl
    · exact ih m (n + 1)

theorem persist_mapLog (l : Ledger M) (now : UInt64) :
    (l.mapLog f).persist now = ((l.persist now).1, (l.persist now).2.mapLog f) := by
  have hpending : (l.mapLog f).pending = l.pending := rfl
  have hblock : (l.mapLog f).pendingBlock? now = l.pendingBlock? now := rfl
  have hsnapshot : (l.mapLog f).snapshot = l.snapshot := rfl
  rw [persist, persist, hpending, hblock, hsnapshot]
  split
  · rfl
  · cases l.pendingBlock? now with
    | none => rfl
    | some b =>
      simp only [l.promote_mapLog hf]
      rcases l.promote b l.snapshot with ⟨e | d, m⟩ <;> rfl

theorem recordsAfter_mapLog (l : Ledger M) (start : Digest) :
    (l.mapLog f).recordsAfter start = l.recordsAfter start :=
  congrArg (Except.map (Record.after start)) (hf.records_eq l.log)

/-- A request is served alike by a ledger and its twin, and leaves them twins. -/
theorem serve_mapLog (l : Ledger M) (q : Request) :
    (l.mapLog f).serve q = ((l.serve q).1, (l.serve q).2.mapLog f) := by
  cases q with
  | addBlocks bs => simp only [serve, addBlocks, l.addBlocksFrom_mapLog hf]
  | call c =>
    cases c with
    | add tx => simp only [serve, answer, add_mapLog]
    | addBlock b => simp only [serve, answer, l.addBlock_mapLog hf]
    | persist now => simp only [serve, answer, l.persist_mapLog hf]
    | recordsAfter start => simp only [serve, answer, l.recordsAfter_mapLog hf]
    | snapshot => rfl

end Ledger
end LedgerNode
