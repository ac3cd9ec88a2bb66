import LedgerNode.Node
import LedgerNode.ProofOfWork

/-!
Mining attempts: how a node makes a candidate block of its pool, what a block from elsewhere means for
an attempt under way, and how an attempt ends.
-/
namespace LedgerNode

/-- A search for a block, with the transactions that are in it. -/
structure Attempt where
  candidate : Candidate
  ids : List TransactionId
  isCancelled : Bool
  deriving DecidableEq

/-- What comes of the try to begin an attempt. -/
inductive MiningStart where
  | nothing
  | attempt (a : Attempt)
  /-- There is no height for the candidate: the mining loop panics. -/
  | heightOverflow
  deriving DecidableEq

def MiningStart.attempt? : MiningStart → Option Attempt
  | attempt a => some a
  | _ => none

theorem MiningStart.attempt?_eq_some_iff {start : MiningStart} {a : Attempt} :
    start.attempt? = some a ↔ start = .attempt a := by
  cases start <;> simp [attempt?]

inductive AttemptEnd where
  | committed
  | cancelled
  /-- The ledger refused the block, or there is none. -/
  | discarded
  deriving DecidableEq, Repr

/-- How many attempts were begun, and how they ended. -/
structure MiningCounts where
  started : Nat
  committed : Nat
  cancelled : Nat
  discarded : Nat
  deriving DecidableEq, Repr

namespace MiningCounts

def zero : MiningCounts := ⟨0, 0, 0, 0⟩

def start (c : MiningCounts) : MiningCounts := { c with started := c.started + 1 }

def finish (c : MiningCounts) : AttemptEnd → MiningCounts
  | .committed => { c with committed := c.committed + 1 }
  | .cancelled => { c with cancelled := c.cancelled + 1 }
  | .discarded => { c with discarded := c.discarded + 1 }

/-- Attempts that have ended, however they did. -/
def ended (c : MiningCounts) : Nat := c.committed + c.cancelled + c.discarded

@[simp] theorem ended_start (c : MiningCounts) : c.start.ended = c.ended := rfl

@[simp] theorem ended_finish (c : MiningCounts) (e : AttemptEnd) :
    (c.finish e).ended = c.ended + 1 := by
  cases e <;> simp [finish, ended] <;> omega

end MiningCounts

/-- Pooled transactions, told apart by whether they still apply. -/
structure Sifted where
  kept : List (TransactionId × Transaction)
  evicted : List TransactionId
  deriving DecidableEq

/-- Applies transactions one after another and leaves out those that fail. -/
def Snapshot.sift (s : Snapshot) : List (TransactionId × Transaction) → Sifted
  | [] => ⟨[], []⟩
  | (id, tx) :: rest =>
    match s.apply tx with
    | .ok s =>
      let r := s.sift rest
      { r with kept := (id, tx) :: r.kept }
    | .error _ =>
      let r := s.sift rest
      { r with evicted := id :: r.evicted }

namespace Attempt

/-- An attempt at the block behind the tip of a snapshot, unless there is nothing to put in it. -/
def ofKept (miner : Account) (now : UInt64) (s : Snapshot)
    (kept : List (TransactionId × Transaction)) : MiningStart :=
  if kept.isEmpty then .nothing
  else match s.nextHeight? with
    | none => .heightOverflow
    | some height => .attempt ⟨⟨s.tip, height, now, miner, kept.map (·.2)⟩, kept.map (·.1), false⟩

/-- A block from elsewhere has one of its transactions, or is no lower than the candidate. -/
def isObsoleteBy (a : Attempt) (b : Block) : Bool :=
  b.transactionIds.any a.ids.contains || decide (a.candidate.height ≤ b.header.height)

/-- What a block from elsewhere makes of an attempt. -/
def notice (a : Attempt) (b : Block) : Attempt :=
  { a with isCancelled := a.isCancelled || a.isObsoleteBy b }

def cancel (a : Attempt) : Attempt := { a with isCancelled := true }

/-- What the search yields; none, if it takes more than `patience` nonces. -/
def outcome? (pow : ProofOfWork) (nonces : Nat → UInt32) (patience : Nat) (a : Attempt) :
    Option (Except MiningError Block) :=
  pow.mine (fun _ => a.isCancelled) nonces a.candidate patience

theorem isCancelled_notice {a : Attempt} (b : Block) (h : a.isCancelled = true) :
    (a.notice b).isCancelled = true := by
  simp [notice, h]

end Attempt

namespace Node

variable {L : Type}

/-- Takes transactions out of the pool. -/
def forget (n : Node L) (ids : List TransactionId) : Node L :=
  { n with pool := (n.pool.removeAll ids).2 }

/-- Nobody receives new transactions any more. -/
def closePool (n : Node L) : Node L := { n with pool := n.pool.close }

/-- Begins an attempt with what is pooled; what no longer applies leaves the pool. -/
def startAttempt (n : Node L) (miner : Account) (now : UInt64) : MiningStart × Node L :=
  let s := n.ledger.snapshot
  let r := s.sift n.pool.oldestFirst
  (Attempt.ofKept miner now s r.kept, n.forget r.evicted)

/-- Ends an attempt.  The block of a cancelled one is dropped even if it was found in time.  It has no
end where the mining loop panics on adding the block. -/
def finishAttempt [BlockLog L] (n : Node L) (a : Attempt) :
    Except MiningError Block → Option AttemptEnd × Node L
  | .ok b =>
    if a.isCancelled then (some .cancelled, n)
    else match n.ledger.addBlock b with
      | (.ok _, ledger) => (some .committed, { n with ledger }.forget a.ids)
      | (.error (.error _), ledger) => (some .discarded, { n with ledger })
      | (.error .heightOverflow, ledger) => (none, { n with ledger })
  | .error .cancelled => (some .cancelled, n)
  | .error _ => (some .discarded, n)

/-- A block was committed elsewhere: its transactions leave the pool. -/
def noticeBlock (n : Node L) (b : Block) : Node L := n.forget b.transactionIds

/-- A cancelled attempt changes nothing, whatever its search found. -/
theorem finishAttempt_of_isCancelled [BlockLog L] (n : Node L) {a : Attempt} (b : Block)
    (h : a.isCancelled = true) : n.finishAttempt a (.ok b) = (some .cancelled, n) := by
  simp [finishAttempt, h]

end Node
end LedgerNode
