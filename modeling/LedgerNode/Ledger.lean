import LedgerNode.BlockLog

/-!
The ledger: balances and tip, transactions not yet in a block, and the log of committed blocks.
Every operation gives its result beside the ledger it leaves; one that fails leaves the ledger as it
was, and so does one that panics because the height of the tip is the greatest there is.
-/
namespace LedgerNode

structure Ledger (L : Type) where
  snapshot : Snapshot
  /-- Applied to the balances, but in no block yet. -/
  pending : List Transaction
  log : L
  deriving DecidableEq

/-- Adding several blocks stopped at one of them; those before it stay committed. -/
structure BatchError where
  applied : Nat
  cause : LedgerFault
  deriving DecidableEq

/-- How many of the blocks were added. -/
def addedCount : Except BatchError Nat → Nat
  | .ok applied => applied
  | .error e => e.applied

/-- A block that was found to extend `base`, and what it makes of it. -/
structure CheckedBlock where
  block : Block
  base : Snapshot
  result : Snapshot
  deriving DecidableEq

namespace Ledger

variable {L : Type}

def ofParts (s : Snapshot) (log : L) : Ledger L := ⟨s, [], log⟩

/-- A ledger that keeps its blocks in memory. -/
def inMemory (b : Balances) : Ledger MemoryLog := ofParts (.ofBalances b) ⟨[]⟩

/-- Applies a transaction and keeps it for the next block made of such. -/
def add (l : Ledger L) (tx : Transaction) : Except LedgerError Unit × Ledger L :=
  match l.snapshot.apply tx with
  | .ok s => (.ok (), { l with snapshot := s, pending := l.pending ++ [tx] })
  | .error e => (.error e, l)

/-- The first half of adding a block: it is checked against a copy of the state. -/
def checkBlock (base : Snapshot) (b : Block) : Except LedgerFault CheckedBlock :=
  (base.applyBlock b).map fun result => ⟨b, base, result⟩

section logged

variable [BlockLog L]

/-- Appends the record of a block and moves the ledger to `result`, with the block as its tip. -/
def promote (l : Ledger L) (b : Block) (result : Snapshot) : Except LedgerFault Digest × Ledger L :=
  let r := Record.ofBlock b
  match BlockLog.append l.log r with
  | (.ok (), log) =>
    (.ok r.digest, { l with snapshot := result.advance r.digest b.header.height, log })
  | (.error e, log) => (.error (.error e), { l with log })

/-- The second half of adding a block: when the state is no longer the one that it was checked
against, it is checked again. -/
def commit (l : Ledger L) (c : CheckedBlock) : Except LedgerFault Digest × Ledger L :=
  if l.snapshot = c.base then l.promote c.block c.result
  else match l.snapshot.applyBlock c.block with
    | .ok result => l.promote c.block result
    | .error f => (.error f, l)

def addBlock (l : Ledger L) (b : Block) : Except LedgerFault Digest × Ledger L :=
  match checkBlock l.snapshot b with
  | .ok c => l.commit c
  | .error f => (.error f, l)

/-- Adds blocks in order, where `applied` came before them, and counts them all. -/
def addBlocksFrom (applied : Nat) (l : Ledger L) : List Block → Except BatchError Nat × Ledger L
  | [] => (.ok applied, l)
  | b :: rest =>
    match l.addBlock b with
    | (.ok _, l) => l.addBlocksFrom (applied + 1) rest
    | (.error cause, l) => (.error ⟨applied, cause⟩, l)

def addBlocks (l : Ledger L) (bs : List Block) : Except BatchError Nat × Ledger L :=
  l.addBlocksFrom 0 bs

/-- The block that the pending transactions make, if there is a height for it. -/
def pendingBlock? (l : Ledger L) (now : UInt64) : Option Block :=
  l.snapshot.nextHeight?.map fun height => ⟨⟨l.snapshot.tip, height, 0, now⟩, l.pending⟩

/-- Commits the pending transactions as a block without proof of work.  Their amounts have moved
already. -/
def persist (l : Ledger L) (now : UInt64) : Except LedgerFault Digest × Ledger L :=
  if l.pending.isEmpty then (.error (.error .nothingToPersist), l)
  else match l.pendingBlock? now with
    | none => (.error .heightOverflow, l)
    | some b =>
      match l.promote b l.snapshot with
      | (.ok digest, l) => (.ok digest, { l with pending := [] })
      | (.error f, l) => (.error f, l)

def recordsAfter (l : Ledger L) (start : Digest) : Except LedgerError (List Record) :=
  (BlockLog.records l.log).map (Record.after start)

end logged

/-- With nothing changed in between, the two halves of adding a block check it once. -/
theorem addBlock_eq [BlockLog L] (l : Ledger L) (b : Block) :
    l.addBlock b = match l.snapshot.applyBlock b with
      | .ok result => l.promote b result
      | .error f => (.error f, l) := by
  unfold addBlock checkBlock
  cases l.snapshot.applyBlock b <;> simp [Except.map, commit]

end Ledger
end LedgerNode
