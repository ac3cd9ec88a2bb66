import LedgerNode.Config
import LedgerNode.Ledger.Load
import LedgerNode.Node

/-!
Starting a node: its command line is read and checked, its ledger loaded and its registry opened, in
this order.
-/
namespace LedgerNode

/-- Files by their paths; there is nothing at any other path. -/
abbrev Files := SortedMap String FileEntry

/-- What stands at a path. -/
def Files.entry (fs : Files) (path : String) : FileEntry := (fs.get? path).getD .absent

inductive StartupError where
  | configuration (cause : ConfigError)
  | ledger (cause : LedgerError)
  | registry (path : String) (cause : RegistryError)
  /-- The server has no address to listen at. -/
  | server
  deriving DecidableEq

namespace StartupError

def message : StartupError → String
  | configuration _ => "invalid configuration"
  | ledger _ => "failed to load ledger"
  | registry .. => "failed to open node registry"
  | server => "http server failed"

/-- What is behind an error, where that has a text. -/
def cause? : StartupError → Option String
  | configuration cause => some cause.message
  | ledger (.file .notText) => none
  | ledger cause => cause.message?
  | registry path cause => some (cause.message path)
  | server => none

end StartupError

namespace Startup

/-- Loads what a node needs; beside it are the files afterwards. -/
def load (c : Config) (fs : Files) : Except StartupError (Node FileLog) × Files :=
  match Ledger.load (fs.entry c.genesisPath) (fs.entry c.blocksPath) none with
  | (.error e, log) => (.error (.ledger e), fs.insert c.blocksPath log)
  | (.ok ledger, log) =>
    let fs := fs.insert c.blocksPath log
    let registry := Files.entry fs c.nodesPath
    match Registry.list registry with
    | .error e => (.error (.registry c.nodesPath e), fs)
    | .ok _ => (.ok ⟨ledger, .ofCapacity c.poolCapacity, registry⟩, fs)

/-- Starts a node as its command line says. -/
def start (a : CommandLine.Arguments) (fs : Files) : Except StartupError (Node FileLog) × Files :=
  match Config.ofArguments a with
  | .error e => (.error (.configuration e), fs)
  | .ok c => load c fs

end Startup

namespace CommandLine

/-- The exit code of a program that does not get past its command line. -/
def Halt.exitCode : Halt → UInt32
  | helpWanted | versionWanted => 0
  | _ => 2

end CommandLine
end LedgerNode
