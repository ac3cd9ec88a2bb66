import LedgerNode.Mining

/-!
A node that mines: one worker has one attempt at most, and every attempt is counted when it begins and
when it ends.  A mining loop that panics is gone for good.
-/
namespace LedgerNode

inductive Worker where
  | idle
  /-- The search has not been let go. -/
  | waiting (a : Attempt)
  | searching (a : Attempt)
  /-- The mining loop has panicked, perhaps over the end of an attempt. -/
  | crashed (unended : Option Attempt)
  deriving DecidableEq

namespace Worker

/-- The attempt that has begun and has not ended.  One that the loop panicked over never ends. -/
def attempt? : Worker → Option Attempt
  | idle => none
  | waiting a | searching a => some a
  | crashed unended => unended

def isIdle : Worker → Bool
  | idle => true
  | _ => false

def isCrashed : Worker → Bool
  | crashed _ => true
  | _ => false

/-- A worker that takes up an attempt. -/
def take (isHeld : Bool) (a : Attempt) : Worker := if isHeld then waiting a else searching a

/-- A search that was held back goes on. -/
def release : Worker → Worker
  | waiting a => searching a
  | w => w

def notice (b : Block) : Worker → Worker
  | waiting a => waiting (a.notice b)
  | searching a => searching (a.notice b)
  | w => w

@[simp] theorem attempt?_take (isHeld : Bool) (a : Attempt) : (take isHeld a).attempt? = some a := by
  cases isHeld <;> rfl

@[simp] theorem isCrashed_take (isHeld : Bool) (a : Attempt) :
    (take isHeld a).isCrashed = false := by
  cases isHeld <;> rfl

@[simp] theorem isCrashed_release (w : Worker) : w.release.isCrashed = w.isCrashed := by
  cases w <;> rfl

@[simp] theorem attempt?_release (w : Worker) : w.release.attempt? = w.attempt? := by cases w <;> rfl

theorem attempt?_notice {w : Worker} (b : Block) (h : w.isCrashed = false) :
    (w.notice b).attempt? = w.attempt?.map (·.notice b) := by
  cases w with
  | crashed unended => cases h
  | _ => rfl

@[simp] theorem isCrashed_notice (b : Block) (w : Worker) : (w.notice b).isCrashed = w.isCrashed := by
  cases w <;> rfl

theorem attempt?_of_isIdle {w : Worker} (h : w.isIdle = true) : w.attempt? = none := by
  cases w with
  | idle => rfl
  | _ => cases h

end Worker

structure MiningNode (L : Type) where
  node : Node L
  worker : Worker
  counts : MiningCounts
  deriving DecidableEq

namespace MiningNode

variable {L : Type}

def ofNode (n : Node L) : MiningNode L := ⟨n, .idle, .zero⟩

/-- The loop panics: nobody receives new transactions any more. -/
def crash (unended : Option Attempt) (m : MiningNode L) : MiningNode L :=
  { m with node := m.node.closePool, worker := .crashed unended }

/-- Begins an attempt, unless there is one already or nothing to mine. -/
def start (miner : Account) (now : UInt64) (isHeld : Bool) (m : MiningNode L) : MiningNode L :=
  if m.worker.isIdle then
    match m.node.startAttempt miner now with
    | (.attempt a, node) => ⟨node, .take isHeld a, m.counts.start⟩
    | (.nothing, node) => { m with node }
    | (.heightOverflow, node) => { m with node }.crash none
  else m

/-- A block was committed elsewhere. -/
def notice (b : Block) (m : MiningNode L) : MiningNode L :=
  if m.worker.isCrashed then m
  else { m with node := m.node.noticeBlock b, worker := m.worker.notice b }

@[simp] theorem isCrashed_notice (b : Block) (m : MiningNode L) :
    (m.notice b).worker.isCrashed = m.worker.isCrashed := by
  rw [notice]
  split
  · rfl
  · exact Worker.isCrashed_notice b m.worker

/-- The worker is done with its attempt. -/
def finish [BlockLog L] (outcome : Except MiningError Block) (m : MiningNode L) : MiningNode L :=
  if m.worker.isCrashed then m
  else match m.worker.attempt? with
    | none => m
    | some a =>
      match m.node.finishAttempt a outcome with
      | (some e, node) => ⟨node, .idle, m.counts.finish e⟩
      | (none, node) => { m with node }.crash (some a)

/-- The worker is gone, and there is no result of its attempt. -/
def lose (m : MiningNode L) : MiningNode L :=
  if m.worker.isCrashed then m
  else match m.worker.attempt? with
    | none => m
    | some _ => { m with worker := .idle, counts := m.counts.finish .discarded }

def release (m : MiningNode L) : MiningNode L := { m with worker := m.worker.release }

/-- Mining ends; an attempt under way is given up. -/
def stop (m : MiningNode L) : MiningNode L := { m with worker := .idle }

end MiningNode
end LedgerNode
