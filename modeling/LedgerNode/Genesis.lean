import LedgerNode.Snapshot
import LedgerNode.Time.Reader

/-!
The genesis file: the name of the chain, when it began, and who had what then.
-/
namespace LedgerNode

namespace Balances

/-- An object from accounts to amounts; of two members for one account the last counts. -/
def decoder : Json.Decoder Balances :=
  (Json.Decoder.assoc Account.parseJson Json.Decoder.uint64).map SortedMap.ofList

end Balances

structure Genesis where
  time : Time.Instant
  chainId : String
  balances : Balances
  deriving DecidableEq

namespace Genesis

def parseTime (s : String) : Except Json.ContentError Time.Instant :=
  match Time.Instant.ofText? s with
  | some t => .ok t
  | none => .error .time

def fields : Json.Fields (Time.Instant × String × Balances × Unit) :=
  .field "genesis_time" (Json.Decoder.parsed parseTime) none <|
  .field "chain_id" Json.Decoder.text none <|
  .field "balances" Balances.decoder none .done

def ofFields : Time.Instant × String × Balances × Unit → Genesis
  | (time, chainId, balances, ()) => ⟨time, chainId, balances⟩

def decoder : Json.Decoder Genesis := fields.decoder.map ofFields

def ofFile (f : FileEntry) : Except LedgerError Genesis :=
  match f.read with
  | .error cause => .error (.file cause)
  | .ok content =>
    match Json.decode decoder content with
    | .ok g => .ok g
    | .error cause => .error (.malformedGenesis cause)

end Genesis
end LedgerNode
