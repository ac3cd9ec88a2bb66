import LedgerNode.Mining.Worker
import LedgerNode.Sync

/-!
A running node in a network: its mining loop, its synchronization loop and the clock.  Time stands
still until it is moved on; what can happen at one moment happens before the next.
-/
namespace LedgerNode

structure NodeSettings where
  miner : Account
  pow : ProofOfWork
  sync : SyncSettings
  /-- Seconds between two tries to mine. -/
  mineInterval : Nat
  /-- Seconds between two rounds of synchronization. -/
  syncInterval : Nat
  /-- The nonces that a search tries in turn. -/
  nonces : Nat → UInt32
  /-- How many of them it gets through before anything else happens. -/
  patience : Nat

/-- How far the loops of a node are. -/
inductive Phase where
  | ready
  /-- The node was shut down before its loops began. -/
  | calledOff
  /-- When the next ticks are due; without a synchronization loop, or once that has panicked, there is
  one only. -/
  | running (mineTick : Nat) (syncTick : Option Nat)
  /-- Some of the loops that are over may not have been counted. -/
  | ended (uncounted : Nat)
  deriving DecidableEq, Repr

structure RunningNode (L : Type) where
  mining : MiningNode L
  settings : NodeSettings
  network : Network
  /-- Blocks from peers that the mining loop has to take notice of. -/
  notices : Queue Block
  phase : Phase
  /-- Searches that begin are held back. -/
  isHeld : Bool
  now : UInt64
  /-- Seconds since the node was set up. -/
  elapsed : Nat
  /-- The requests to peers so far. -/
  asked : List (PeerAddress × PeerCall)

namespace RunningNode

variable {L : Type}

def noticeSlots : Nat := 64

def ofNode (n : Node L) (settings : NodeSettings) (network : Network) (now : UInt64) :
    RunningNode L where
  mining := .ofNode n
  settings := settings
  network := network
  notices := .ofCapacity noticeSlots
  phase := .ready
  isHeld := false
  now := now
  elapsed := 0
  asked := []

def node (r : RunningNode L) : Node L := r.mining.node

def withNode (r : RunningNode L) (n : Node L) : RunningNode L :=
  { r with mining := { r.mining with node := n } }

/-- A mining loop that has panicked receives nothing any more. -/
def hangUp (r : RunningNode L) : RunningNode L :=
  if r.mining.worker.isCrashed then { r with notices := r.notices.close } else r

@[simp] theorem mining_hangUp (r : RunningNode L) : r.hangUp.mining = r.mining := by
  rw [hangUp]
  split <;> rfl

theorem hangUp_of_running {r : RunningNode L} (h : r.mining.worker.isCrashed = false) :
    r.hangUp = r := by
  rw [hangUp, h]
  rfl

/-- Begins an attempt where there is reason to. -/
def startAttempt (r : RunningNode L) : RunningNode L :=
  { r with mining := r.mining.start r.settings.miner r.now r.isHeld }.hangUp

section loops

variable [BlockLog L]

/-- What the search under way has come to, if it is over. -/
def outcome? (r : RunningNode L) : Option (Except MiningError Block) :=
  match r.mining.worker with
  | .searching a => a.outcome? r.settings.pow r.settings.nonces r.settings.patience
  | _ => none

/-- The mining loop turns to notices first, then to its worker, then to new transactions, and to the
clock when there is nothing else. -/
def mineStep? (r : RunningNode L) : Option (RunningNode L) :=
  match r.phase with
  | .running mineTick syncTick =>
    if r.mining.worker.isCrashed then none
    else match r.notices.receive with
    | (.item b, notices) => some { r with notices, mining := r.mining.notice b }
    | _ =>
      match r.outcome? with
      | some outcome => some { r with mining := r.mining.finish outcome }.hangUp
      | none =>
        match r.node.pool.receive with
        | (.item _, pool) => some (r.withNode { r.node with pool }).startAttempt
        | _ =>
          if mineTick ≤ r.elapsed then
            some { r with phase := .running (r.elapsed + r.settings.mineInterval) syncTick }.startAttempt
          else none
  | _ => none

def mineSteps : (limit : Nat) → RunningNode L → RunningNode L
  | 0, r => r
  | limit + 1, r =>
    match r.mineStep? with
    | none => r
    | some r => mineSteps limit r

/-- The mining loop does what there is to do: it looks at every notice and every new transaction and
at the clock once, and each of these begins one attempt at most. -/
def mine (r : RunningNode L) : RunningNode L :=
  mineSteps (r.notices.waiting.length + 2 * r.node.pool.announced.waiting.length + 4) r

/-- Sends the mining loop notice of blocks.  Where there is no room, it has to read first; `false` is
for a sender who would wait forever. -/
def sendNotices (r : RunningNode L) : List Block → Bool × RunningNode L
  | [] => (true, r)
  | b :: rest =>
    if r.notices.isOpen then
      match r.notices.send? b with
      | some notices => sendNotices { r with notices } rest
      | none =>
        let r := r.mine
        match r.notices.send? b with
        | some notices => sendNotices { r with notices } rest
        | none => (!r.notices.isOpen, r)
    else (true, r)

def release (r : RunningNode L) : RunningNode L :=
  { r with isHeld := false, mining := r.mining.release }

/-- Some peer that was asked for blocks lets searches go. -/
def areSearchesFreed (net : Network) (asked : List (PeerAddress × PeerCall)) : Bool :=
  asked.any fun (a, call) => call != .status && net.freesSearches a

/-- One round of synchronization.  It has no result if it waits forever for the mining loop. -/
def sync (r : RunningNode L) : Option (Except SyncError SyncReport) × RunningNode L :=
  let round := r.node.sync r.settings.sync r.network
  let r := { r.withNode round.node with asked := r.asked ++ round.asked }
  let r := if areSearchesFreed r.network round.asked then r.release else r
  match r.sendNotices round.notices with
  | (true, r) => (some round.result, r)
  | (false, r) => (none, r)

/-- The synchronization loop has panicked. -/
def endSync (r : RunningNode L) : RunningNode L :=
  match r.phase with
  | .running mineTick _ => { r with phase := .running mineTick none }
  | _ => r

omit [BlockLog L] in
@[simp] theorem mining_endSync (r : RunningNode L) : r.endSync.mining = r.mining := by
  rw [endSync]
  split <;> rfl

/-- A round of synchronization, if the time for one has come. -/
def syncIfDue (r : RunningNode L) : RunningNode L :=
  match r.phase with
  | .running mineTick (some syncTick) =>
    if syncTick ≤ r.elapsed then
      match { r with phase := .running mineTick (some (r.elapsed + r.settings.syncInterval)) }.sync with
      | (some (.error .heightOverflow), r) => r.endSync
      | (_, r) => r
    else r
  | _ => r

/-- Everything that can happen now happens. -/
def settle (r : RunningNode L) : RunningNode L := r.mine.syncIfDue.mine

/-- The loops are over, and `uncounted` of them were not counted: nobody receives what they received. -/
def finish (r : RunningNode L) (uncounted : Nat) : RunningNode L :=
  let r := r.withNode r.node.closePool
  { r with phase := .ended uncounted, notices := r.notices.close, mining := r.mining.stop }

def loopCount (mines synchronizes : Bool) : Nat := mines.toNat + synchronizes.toNat

/-- Begins the loops, unless they have begun before.  Those of a node that was called off end as they
begin. -/
def start? (r : RunningNode L) (synchronizes : Bool) : Option (RunningNode L) :=
  match r.phase with
  | .ready =>
    let syncTick := if synchronizes then some r.elapsed else none
    some { r with phase := .running r.elapsed syncTick }.settle
  | .calledOff => some (r.finish (loopCount true synchronizes))
  | _ => none

/-- Ends the loops and counts those not counted yet.  An attempt under way is not counted any more. -/
def shutdown (r : RunningNode L) : Nat × RunningNode L :=
  match r.phase with
  | .running _ syncTick =>
    (loopCount (!r.mining.worker.isCrashed) syncTick.isSome, (r.finish 0).release)
  | .ready => (0, { r with phase := .calledOff }.release)
  | .calledOff => (0, r.release)
  | .ended uncounted => (uncounted, { r with phase := .ended 0 }.release)

/-- Takes submitted transactions into the pool before any loop sees them. -/
def submit (r : RunningNode L) (txs : List Transaction) :
    List (Except PoolError TransactionId) × RunningNode L :=
  let (results, pool) := txs.foldl (fun (results, pool) tx =>
    let (result, pool) := Pool.add pool tx
    (results ++ [result], pool)) ([], r.node.pool)
  (results, (r.withNode { r.node with pool }).settle)

/-- Moves the time on, in one go. -/
def advance (r : RunningNode L) (seconds : Nat) : RunningNode L :=
  { r with elapsed := r.elapsed + seconds }.settle

/-- A round of synchronization on demand. -/
def syncNow (r : RunningNode L) : Option (Except SyncError SyncReport) × RunningNode L :=
  let (result, r) := r.sync
  (result, r.settle)

def hold (r : RunningNode L) : RunningNode L := { r with isHeld := true }

/-- Searches go on, those held back too. -/
def letGo (r : RunningNode L) : RunningNode L := r.release.settle

/-- Changes the ledger from outside the loops. -/
def onLedger {α : Type} (r : RunningNode L) (change : Ledger L → α × Ledger L) :
    α × RunningNode L :=
  let (result, ledger) := change r.node.ledger
  (result, (r.withNode { r.node with ledger }).settle)

/-- Receives a new transaction in place of the mining loop, as long as that has not begun. -/
def receive (r : RunningNode L) : Received Transaction × RunningNode L :=
  match r.phase with
  | .ready | .calledOff =>
    let (received, pool) := r.node.pool.receive
    (received, r.withNode { r.node with pool })
  | _ => (.closed, r)

/-- Nobody receives new transactions any more, unless the mining loop does. -/
def closePool (r : RunningNode L) : RunningNode L :=
  match r.phase with
  | .ready | .calledOff => r.withNode r.node.closePool
  | _ => r

/-- Takes the notices in place of the mining loop, as long as that has not begun. -/
def takeNotices (r : RunningNode L) : List Block × RunningNode L :=
  match r.phase with
  | .ready | .calledOff => (r.notices.waiting, { r with notices := { r.notices with waiting := [] } })
  | _ => ([], r)

/-- Nobody takes notices any more, unless the mining loop does. -/
def closeNotices (r : RunningNode L) : RunningNode L :=
  match r.phase with
  | .ready | .calledOff => { r with notices := r.notices.close }
  | _ => r

end loops

end RunningNode
end LedgerNode
