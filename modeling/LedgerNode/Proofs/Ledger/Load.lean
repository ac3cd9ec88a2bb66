import LedgerNode.Ledger.Load
import LedgerNode.Proofs.Genesis
import LedgerNode.Proofs.Ledger.Log

/-!
Loading a ledger from a log that was written record by record.
-/
namespace LedgerNode.Ledger

theorem replayLog_lines (s : Snapshot) (rs : List Record) :
    replayLog s (rs.flatMap FileLog.line) = rs.foldlM Snapshot.replay s :=
  FileLog.foldEntries_of_entries Snapshot.replay s (FileLog.entries_lines rs)

/-- A ledger begins with the balances of its genesis file. -/
theorem load_of_empty {genesis log : FileEntry} {g : Genesis} (hg : Genesis.ofFile genesis = .ok g)
    (hlog : log = .absent ∨ log = .file []) (limit : SizeLimit) :
    load genesis log limit = (.ok (ofParts (.ofBalances g.balances) ⟨[], limit⟩), .file []) := by
  have hread : log.readOrCreate = .ok [] := by rcases hlog with rfl | rfl <;> rfl
  have hreplay : replayLog (.ofBalances g.balances) [] = .ok (.ofBalances g.balances) :=
    replayLog_lines _ []
  simp [load, hg, hread, hreplay, Except.map]

end LedgerNode.Ledger
