import LedgerNode.Snapshot

/-!
What a node tells about its ledger when it starts.
-/
namespace LedgerNode.Ledger

/-- An account and what it has, or the state as a whole: what a node tells about its ledger. -/
inductive SummaryEvent where
  | state (tip : Digest) (height : UInt64) (accounts : Nat)
  | balance (account : Account) (value : UInt64)
  deriving DecidableEq

/-- The state as a whole, then each account in order. -/
def summary (s : Snapshot) : List SummaryEvent :=
  .state s.tip s.height s.balances.size :: s.balances.entries.map fun e => .balance e.1 e.2

/-- An event on one line. -/
def SummaryEvent.line : SummaryEvent → String
  | state tip height accounts =>
    "ledger state hash=" ++ toString tip ++ " height=" ++ toString height ++ " accounts=" ++
      toString accounts
  | balance account value => "balance account=" ++ toString account ++ " balance=" ++ toString value

end LedgerNode.Ledger
