import LedgerNode.Ledger.Summary
import LedgerNode.Startup

/-!
The program.  It reads the files that its command line names, starts a node on them, writes the block
log and tells how that went.
-/
namespace LedgerNode

open CommandLine

/-- What stands at a path; something that cannot be read as a file counts as a directory. -/
def readEntry (path : String) : IO FileEntry := do
  try
    return .file (← IO.FS.readBinFile path).toList
  catch
    | .noFileOrDirectory .. => return .absent
    | _ => return .directory

def writeEntry (path : String) : FileEntry → IO Unit
  | .file content => IO.FS.writeBinFile path content.toByteArray
  | _ => return

def reportError (e : StartupError) : IO Unit := do
  IO.eprintln ("Error: " ++ e.message)
  if let some cause := e.cause? then
    IO.eprintln ("\nCaused by:\n    " ++ cause)

/-- Starts a node.  It has no server to run, so that is where it ends. -/
def runNode (a : Arguments) : IO UInt32 := do
  let paths := [a.genesisPath, a.blocksPath, a.nodesPath]
  let before : Files := .ofList (← paths.mapM fun path => return (path, ← readEntry path))
  let (started, after) := Startup.start a before
  if before.entry a.blocksPath ≠ after.entry a.blocksPath then
    writeEntry a.blocksPath (after.entry a.blocksPath)
  match started with
  | .error e => reportError e
  | .ok node =>
    for event in Ledger.summary node.ledger.snapshot do
      IO.println event.line
    reportError .server
  return 1

def reportHalt (h : Halt) : IO UInt32 := do
  match h with
  | .helpWanted => IO.print usage
  | .versionWanted => IO.println version
  | _ => IO.eprintln ("error: " ++ h.message)
  return h.exitCode

end LedgerNode

def main (args : List String) : IO UInt32 :=
  match LedgerNode.CommandLine.parse args with
  | .ok a => LedgerNode.runNode a
  | .error h => LedgerNode.reportHalt h
