import LedgerNode.Ledger.Load

/-!
A ledger and the files it is kept in, while other programs may touch these files too.  The ledger keeps
its log open: a log that is written over changes under it, one that is deleted lives on for it alone.
-/
namespace LedgerNode

structure LedgerSession where
  genesis : FileEntry
  /-- What stands at the path of the log. -/
  log : FileEntry
  limit : SizeLimit
  ledger : Option (Ledger FileLog)
  /-- The log that the ledger keeps open is the file at the path. -/
  isLinked : Bool
  deriving DecidableEq

namespace LedgerSession

def ofFiles (genesis log : FileEntry) : LedgerSession := ⟨genesis, log, none, none, false⟩

/-- Loads the ledger anew; without success there is none. -/
def load (s : LedgerSession) : Except LedgerError Unit × LedgerSession :=
  match Ledger.load s.genesis s.log s.limit with
  | (.ok ledger, log) => (.ok (), { s with log, ledger := some ledger, isLinked := true })
  | (.error e, log) => (.error e, { s with log, ledger := none, isLinked := false })

/-- Puts a ledger in place of the one before, with what it has written. -/
def withLedger (s : LedgerSession) (ledger : Ledger FileLog) : LedgerSession :=
  { s with
    ledger := some ledger
    log := if s.isLinked then .file ledger.log.content else s.log }

/-- Changes the log behind the ledger's back. -/
def overwriteLog (s : LedgerSession) (content : Bytes) : LedgerSession :=
  { s with
    log := .file content
    ledger :=
      if s.isLinked then s.ledger.map fun l => { l with log := { l.log with content } }
      else s.ledger }

/-- Puts a file at the path of the log, or takes away what stands there. -/
def replaceLog (s : LedgerSession) (entry : FileEntry) : LedgerSession :=
  match entry, s.log with
  | .file content, .file _ => s.overwriteLog content
  | _, _ => { s with log := entry, isLinked := false }

/-- Writes behind the end of the log. -/
def extendLog (s : LedgerSession) (content : Bytes) : LedgerSession :=
  match s.log with
  | .file before => s.overwriteLog (before ++ content)
  | .absent => { s with log := .file content, isLinked := false }
  | .directory => s

/-- From now on the log may grow by so many bytes. -/
def limitRoom (s : LedgerSession) (room : Option Nat) : LedgerSession :=
  let length := match s.log with
    | .file content => content.length
    | _ => 0
  let limit := room.map (length + ·)
  { s with limit, ledger := s.ledger.map fun l => { l with log := { l.log with limit } } }

end LedgerSession
end LedgerNode
