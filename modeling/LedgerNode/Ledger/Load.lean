import LedgerNode.Genesis
import LedgerNode.Ledger

/-!
Loading a ledger from its files: the balances of the genesis file, and on top of them every block of
the log.  Blocks of the log are trusted history: their links are not checked again.
-/
namespace LedgerNode.Ledger

/-- The state that the entries of a log lead to. -/
def replayLog (s : Snapshot) (content : Bytes) : Except LedgerError Snapshot :=
  FileLog.foldEntries Snapshot.replay s content

/-- Loads a ledger; beside it is what stands at the path of the log afterwards.  An absent log is
made, but only once the genesis file has been read. -/
def load (genesis log : FileEntry) (limit : SizeLimit) :
    Except LedgerError (Ledger FileLog) × FileEntry :=
  match Genesis.ofFile genesis with
  | .error e => (.error e, log)
  | .ok g =>
    match log.readOrCreate with
    | .error cause => (.error (.file cause), log)
    | .ok content =>
      ((replayLog (.ofBalances g.balances) content).map fun s => .ofParts s ⟨content, limit⟩,
        .file content)

end LedgerNode.Ledger
