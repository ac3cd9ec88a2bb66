import Mathlib.Logic.Relation
import LedgerNode.Proofs.Node.MinedOnce
import LedgerNode.Running

/-!
The accounts of the mining loop, whatever it meets and in whatever order.  An attempt begins only where
there is none, and it is counted when it begins and when it ends.  The exception is the attempt that is
under way at the shutdown: the loop gives it up and does not count it any more.
-/
namespace LedgerNode

/-- What the mining loop meets before it is shut down. -/
inductive MiningEvent (L : Type) where
  | noticed (b : Block)
  | finished (outcome : Except MiningError Block)
  | lost
  /-- A new transaction was announced, or the clock has ticked. -/
  | prompted (miner : Account) (now : UInt64) (isHeld : Bool)
  | released
  /-- The ledger, the pool or the registry were changed, but not by the loop. -/
  | changed (n : Node L)

namespace MiningNode

variable {L : Type}

/-- The attempts in flight.  One that the loop panics over stays there. -/
def inFlight (m : MiningNode L) : Nat := m.worker.attempt?.toList.length

/-- What an event may do to the attempts and their counts: nothing, or one begins where there is none,
or the one in flight ends. -/
inductive Turn (m m' : MiningNode L) : Prop where
  | idle : m.worker.attempt? = none → m'.worker.attempt? = none → m'.counts = m.counts → Turn m m'
  /-- It is the same attempt, and it does not come back once it is cancelled. -/
  | underWay {a b : Attempt} : m.worker.attempt? = some a → m'.worker.attempt? = some b →
      b.candidate = a.candidate → b.ids = a.ids → (a.isCancelled = true → b.isCancelled = true) →
      m'.counts = m.counts → Turn m m'
  | begun {a : Attempt} : m.worker.attempt? = none → m'.worker.attempt? = some a →
      m'.counts = m.counts.start → Turn m m'
  | ended {a : Attempt} (e : AttemptEnd) : m.worker.attempt? = some a → m'.worker.attempt? = none →
      m'.counts = m.counts.finish e → Turn m m'

/-- Every attempt that has begun has ended or is in flight. -/
def Accounted (m : MiningNode L) : Prop := m.counts.started = m.counts.ended + m.inFlight

section turns

variable {m m' : MiningNode L}

/-- Nothing but the node around the loop has changed. -/
theorem Turn.of_eq (hworker : m'.worker.attempt? = m.worker.attempt?) (hcounts : m'.counts = m.counts) :
    Turn m m' := by
  cases h : m.worker.attempt? with
  | none => exact .idle h (hworker.trans h) hcounts
  | some a => exact .underWay h (hworker.trans h) rfl rfl id hcounts

theorem Turn.accounted (h : Turn m m') (hm : m.Accounted) : m'.Accounted := by
  rw [Accounted, inFlight] at *
  cases h with
  | idle h h' hcounts => simpa [h, h', hcounts] using hm
  | underWay h h' _ _ _ hcounts => simpa [h, h', hcounts] using hm
  | begun h h' hcounts => simpa [h, h', hcounts, MiningCounts.start, MiningCounts.ended] using hm
  | ended e h h' hcounts =>
    have hstarted : (m.counts.finish e).started = m.counts.started := by cases e <;> rfl
    rw [h']
    simpa [h, hcounts, hstarted] using hm

theorem turn_notice (m : MiningNode L) (b : Block) : Turn m (m.notice b) := by
  rw [notice]
  split
  · exact .of_eq rfl rfl
  · rename_i hrunning
    have hnotice := Worker.attempt?_notice b (Bool.not_eq_true _ ▸ hrunning)
    cases h : m.worker.attempt? with
    | none => exact .idle h (by simp [hnotice, h]) rfl
    | some a =>
      refine .underWay h (b := a.notice b) (by simp [hnotice, h]) rfl rfl ?_ rfl
      exact Attempt.isCancelled_notice b

theorem turn_start (m : MiningNode L) (miner : Account) (now : UInt64) (isHeld : Bool) :
    Turn m (m.start miner now isHeld) := by
  rw [start]
  split
  · rename_i hidle
    have hnone := Worker.attempt?_of_isIdle hidle
    split
    · exact .begun hnone (Worker.attempt?_take _ _) rfl
    · exact .idle hnone hnone rfl
    · exact .idle hnone rfl rfl
  · exact .of_eq rfl rfl

theorem turn_finish [BlockLog L] (m : MiningNode L) (outcome : Except MiningError Block) :
    Turn m (m.finish outcome) := by
  rw [finish]
  split
  · exact .of_eq rfl rfl
  · split
    · exact .of_eq rfl rfl
    · rename_i a ha
      split
      · exact .ended _ ha rfl rfl
      · exact .underWay ha rfl rfl rfl id rfl

theorem turn_lose (m : MiningNode L) : Turn m m.lose := by
  rw [lose]
  split
  · exact .of_eq rfl rfl
  · split
    · exact .of_eq rfl rfl
    · rename_i a ha
      exact .ended .discarded ha rfl rfl

end turns

section runs

variable [BlockLog L]

def meet (m : MiningNode L) : MiningEvent L → MiningNode L
  | .noticed b => m.notice b
  | .finished outcome => m.finish outcome
  | .lost => m.lose
  | .prompted miner now isHeld => m.start miner now isHeld
  | .released => m.release
  | .changed n => { m with node := n }

/-- What has become of the loop after all these events. -/
def run (m : MiningNode L) (es : List (MiningEvent L)) : MiningNode L := es.foldl meet m

theorem turn_meet (m : MiningNode L) (e : MiningEvent L) : Turn m (m.meet e) := by
  cases e with
  | noticed b => exact turn_notice m b
  | finished outcome => exact turn_finish m outcome
  | lost => exact turn_lose m
  | prompted miner now isHeld => exact turn_start m miner now isHeld
  | released => exact .of_eq (Worker.attempt?_release _) rfl
  | changed n => exact .of_eq rfl rfl

theorem Accounted.run {m : MiningNode L} (hm : m.Accounted) (es : List (MiningEvent L)) :
    (m.run es).Accounted := by
  induction es generalizing m with
  | nil => exact hm
  | cons e es ih => exact ih ((turn_meet m e).accounted hm)

/-- At any time the attempts that have begun are those that have ended in one of the three ways, and the
one that is in flight; no other begins before it has ended.  After the shutdown no attempt is in
flight, but the counts are what they were: if there was one, it began and is missing from the ends. -/
theorem run_accounted (n : Node L) (es : List (MiningEvent L)) :
    let m := (ofNode n).run es
    m.counts.started =
      m.counts.committed + m.counts.cancelled + m.counts.discarded + m.inFlight ∧
    m.inFlight ≤ 1 ∧
    (∀ e, Turn m (m.meet e)) ∧
    m.stop.inFlight = 0 ∧
    m.stop.counts.started =
      m.stop.counts.committed + m.stop.counts.cancelled + m.stop.counts.discarded + m.inFlight := by
  intro m
  have hm : m.Accounted := Accounted.run (m := ofNode n) rfl es
  refine ⟨hm, ?_, turn_meet m, rfl, hm⟩
  rw [inFlight]
  cases m.worker.attempt? <;> simp

/-- The shutdown comes while the first attempt is under way: one has begun, and none has ended. -/
theorem stop_uncounted :
    let m := (ofNode SharedNode.emptyNode).run [.prompted Ledger.sampleMiner 0 true]
    m.inFlight = 1 ∧ m.stop.inFlight = 0 ∧
      m.stop.counts.started ≠
        m.stop.counts.committed + m.stop.counts.cancelled + m.stop.counts.discarded := by
  have hstart : (ofNode SharedNode.emptyNode).run [.prompted Ledger.sampleMiner 0 true] =
      ⟨SharedNode.emptyNode, .waiting SharedNode.staleAttempt, ⟨1, 0, 0, 0⟩⟩ := by
    have hattempt := SharedNode.startAttempt_emptyNode
    simp only [run, List.foldl_cons, List.foldl_nil, meet, start, ofNode, Worker.isIdle, if_true,
      hattempt]
    rfl
  intro m
  rw [show m = _ from hstart]
  exact ⟨rfl, rfl, nofun⟩

end runs

end MiningNode

namespace RunningNode

variable {L : Type} [BlockLog L] {r r' r'' : RunningNode L}

/-- The mining loop has met some events. -/
def Meets (r r' : RunningNode L) : Prop := ∃ es, r'.mining = r.mining.run es

theorem Meets.refl (r : RunningNode L) : Meets r r := ⟨[], rfl⟩

theorem Meets.trans (h : Meets r r') (h' : Meets r' r'') : Meets r r'' := by
  obtain ⟨es, hes⟩ := h
  obtain ⟨es', hes'⟩ := h'
  exact ⟨es ++ es', by rw [hes', hes, MiningNode.run, MiningNode.run, MiningNode.run, List.foldl_append]⟩

theorem Meets.accounted (h : Meets r r') (hr : r.mining.Accounted) : r'.mining.Accounted := by
  obtain ⟨es, hes⟩ := h
  rw [hes]
  exact hr.run es

/-- A turn of the loop is one event, or two where it hears of a transaction. -/
theorem meets_mineStep? (h : r.mineStep? = some r') : Meets r r' := by
  rw [mineStep?] at h
  split at h
  · split at h
    · cases h
    · split at h
      · cases h
        exact ⟨[.noticed _], rfl⟩
      · split at h
        · cases h
          exact ⟨[.finished _], mining_hangUp _⟩
        · split at h
          · cases h
            exact ⟨[.changed _, .prompted _ _ _], mining_hangUp _⟩
          · split at h
            · cases h
              exact ⟨[.prompted _ _ _], mining_hangUp _⟩
            · cases h
  · cases h

theorem meets_mineSteps (limit : Nat) (r : RunningNode L) : Meets r (mineSteps limit r) := by
  induction limit generalizing r with
  | zero => exact .refl r
  | succ limit ih =>
    rw [mineSteps]
    split
    · exact .refl r
    · rename_i hstep
      exact (meets_mineStep? hstep).trans (ih _)

theorem meets_mine (r : RunningNode L) : Meets r r.mine := meets_mineSteps _ r

theorem meets_release (r : RunningNode L) : Meets r r.release := ⟨[.released], rfl⟩

theorem meets_sendNotices (r : RunningNode L) (bs : List Block) : Meets r (r.sendNotices bs).2 := by
  induction bs generalizing r with
  | nil => exact .refl r
  | cons b bs ih =>
    rw [sendNotices]
    split
    · split
      · exact ih _
      · -- the loop reads first, to make room
        dsimp only
        split
        · exact (meets_mine r).trans (ih _)
        · exact meets_mine r
    · exact .refl r

/-- What a round has come to before its notices are sent: the node is another one, and searches may have
been let go. -/
def rounded (r : RunningNode L) : RunningNode L :=
  let round := r.node.sync r.settings.sync r.network
  let r := { r.withNode round.node with asked := r.asked ++ round.asked }
  if areSearchesFreed r.network round.asked then r.release else r

/-- A round ends with its notices. -/
theorem sync_eq (r : RunningNode L) :
    let round := r.node.sync r.settings.sync r.network
    let sent := r.rounded.sendNotices round.notices
    r.sync = (if sent.1 then some round.result else none, sent.2) := by
  intro round sent
  rw [sync]
  dsimp only
  split
  all_goals
    rename_i hsent
    rw [show sent = _ from hsent]
    rfl

theorem meets_rounded (r : RunningNode L) : Meets r r.rounded := by
  rw [rounded]
  split
  · exact ⟨[.changed _, .released], rfl⟩
  · exact ⟨[.changed _], rfl⟩

theorem meets_sync (r : RunningNode L) : Meets r r.sync.2 := by
  rw [sync_eq]
  exact (meets_rounded r).trans (meets_sendNotices _ _)

theorem meets_syncIfDue (r : RunningNode L) : Meets r r.syncIfDue := by
  rw [syncIfDue]
  split
  · split
    · rename_i mineTick _ _ _
      have hsync := meets_sync
        { r with phase := .running mineTick (some (r.elapsed + r.settings.syncInterval)) }
      split
      · rename_i u hu
        rw [hu] at hsync
        obtain ⟨es, hes⟩ := hsync
        exact ⟨es, u.mining_endSync.trans hes⟩
      · rename_i u _ hu
        rwa [hu] at hsync
    · exact .refl r
  · exact .refl r

theorem meets_settle (r : RunningNode L) : Meets r r.settle :=
  ((meets_mine r).trans (meets_syncIfDue _)).trans (meets_mine _)

/-- What may be done with a node before it is shut down. -/
inductive Call : RunningNode L → RunningNode L → Prop where
  | start {r r' : RunningNode L} (synchronizes : Bool) : r.phase = .ready →
      r.start? synchronizes = some r' → Call r r'
  | submit (r : RunningNode L) (txs : List Transaction) : Call r (r.submit txs).2
  | advance (r : RunningNode L) (seconds : Nat) : Call r (r.advance seconds)
  | sync (r : RunningNode L) : Call r r.syncNow.2
  | letGo (r : RunningNode L) : Call r r.letGo
  | onLedger (r : RunningNode L) {α : Type} (change : Ledger L → α × Ledger L) :
      Call r (r.onLedger change).2
  /-- Anything that the loop does not see at once: searches are held back, the network or the files
  change, or somebody receives in place of a loop that has not begun. -/
  | around {r r' : RunningNode L} (n : Node L) : r'.mining = { r.mining with node := n } → Call r r'

theorem Call.meets (h : Call r r') : Meets r r' := by
  have hchanged (r : RunningNode L) (n : Node L) : Meets r (r.withNode n).settle :=
    Meets.trans ⟨[.changed n], rfl⟩ (meets_settle _)
  cases h with
  | start synchronizes hphase hstart =>
    rw [start?, hphase] at hstart
    cases hstart
    exact meets_settle { r with phase := _ }
  | submit txs => exact hchanged r _
  | advance seconds => exact meets_settle { r with elapsed := r.elapsed + seconds }
  | sync => exact (meets_sync r).trans (meets_settle _)
  | letGo => exact (meets_release r).trans (meets_settle _)
  | onLedger change => exact hchanged r _
  | around n hmining => exact ⟨[.changed n], hmining⟩

omit [BlockLog L] in
theorem counts_shutdown (r : RunningNode L) : r.shutdown.2.mining.counts = r.mining.counts := by
  rw [shutdown]
  cases r.phase <;> rfl

/-- Whatever is done with a node, its attempts are accounted for, and the shutdown adds nothing to the
counts. -/
theorem calls_accounted (n : Node L) (settings : NodeSettings) (net : Network) (now : UInt64)
    (h : Relation.ReflTransGen Call (ofNode n settings net now) r) :
    r.mining.Accounted ∧
      r.shutdown.2.mining.counts.started =
        r.shutdown.2.mining.counts.ended + r.mining.inFlight := by
  have hmeets : Meets (ofNode n settings net now) r := by
    induction h with
    | refl => exact .refl _
    | tail _ hcall ih => exact ih.trans hcall.meets
  have hr : r.mining.Accounted := hmeets.accounted (r := ofNode n settings net now) rfl
  rw [counts_shutdown]
  exact ⟨hr, hr⟩

end RunningNode
end LedgerNode
