import LedgerNode.Proofs.Node.Accounting

/-!
How blocks from peers get to the mining loop.  They go through a queue of bounded length; where it is
full, the loop reads first.  A loop that goes on receiving hears of every block, in the order in which
they were sent.
-/
namespace LedgerNode

namespace Queue

variable {α : Type} {q q' : Queue α}

theorem eq_of_receive {a : α} (h : q.receive = (.item a, q')) :
    q' = { q with waiting := q.waiting.drop 1 } := by
  cases hwaiting : q.waiting with
  | nil => cases hopen : q.isOpen <;> simp [receive, hwaiting, hopen] at h
  | cons b rest =>
    simp only [receive, hwaiting] at h
    cases h
    rfl

theorem eq_of_receive_nothing (h : ∀ a q', q.receive = (.item a, q') → False) :
    q = { q with waiting := q.waiting.drop 1 } := by
  cases hwaiting : q.waiting with
  | nil =>
    rw [List.drop_nil, ← hwaiting]
  | cons a rest => exact (h a { q with waiting := rest } (by simp only [receive, hwaiting])).elim

end Queue

namespace RunningNode

variable {L : Type} [BlockLog L] {r u : RunningNode L}

/-- The mining loop has not ended, and it is behind its queue. -/
structure Receives (r : RunningNode L) : Prop where
  running : ∃ mineTick syncTick, r.phase = .running mineTick syncTick
  alive : r.mining.worker.isCrashed = false
  isOpen : r.notices.isOpen = true
  slots : 0 < r.notices.slots

/-- The mining loop has panicked, and nobody is behind its queue. -/
structure HungUp (r : RunningNode L) : Prop where
  crashed : r.mining.worker.isCrashed = true
  isClosed : r.notices.isOpen = false

omit [BlockLog L] in
theorem hangUp_cases (r : RunningNode L) :
    r.hangUp.HungUp ∨ (r.mining.worker.isCrashed = false ∧ r.hangUp = r) := by
  by_cases hcrashed : r.mining.worker.isCrashed = true
  · refine Or.inl ⟨by rw [mining_hangUp, hcrashed], ?_⟩
    rw [hangUp, if_pos hcrashed]
    rfl
  · rw [Bool.not_eq_true] at hcrashed
    exact Or.inr ⟨hcrashed, hangUp_of_running hcrashed⟩

/-- Blocks are sent, and in between the loop takes its steps; it hears of a block where it takes that
from its queue. -/
inductive Passes : RunningNode L → (sent heard : List Block) → RunningNode L → Prop
  | nil (r : RunningNode L) : Passes r [] [] r
  | sent {r r' : RunningNode L} {b : Block} {notices : Queue Block} {sent heard : List Block}
      (hsend : r.notices.send? b = some notices) (hrest : Passes { r with notices } sent heard r') :
      Passes r (b :: sent) heard r'
  | stepped {r u r' : RunningNode L} {sent heard : List Block} (hstep : r.mineStep? = some u)
      (hrest : Passes u sent heard r') : Passes r sent (r.notices.waiting.take 1 ++ heard) r'

theorem Passes.append {r u r' : RunningNode L} {sent heard sent' heard' : List Block}
    (h : Passes r sent heard u) (h' : Passes u sent' heard' r') :
    Passes r (sent ++ sent') (heard ++ heard') r' := by
  induction h with
  | nil r => exact h'
  | sent hsend _ ih => exact .sent hsend (ih h')
  | stepped hstep _ ih =>
    rw [List.append_assoc]
    exact .stepped hstep (ih h')

/-- A step of the loop takes the notice at the front of the queue, if there is one.  It is the last one
only where the loop panics. -/
theorem mineStep?_cases (h : r.mineStep? = some u) :
    r.mining.worker.isCrashed = false ∧ ∃ (v : RunningNode L) (mineTick : Nat) (syncTick : Option Nat),
      u = v.hangUp ∧ v.notices = { r.notices with waiting := r.notices.waiting.drop 1 } ∧
        v.phase = .running mineTick syncTick := by
  rw [mineStep?] at h
  split at h
  · rename_i mineTick syncTick hphase
    split at h
    · cases h
    · rename_i hrunning
      rw [Bool.not_eq_true] at hrunning
      refine ⟨hrunning, ?_⟩
      split at h
      · rename_i b notices hreceive
        cases h
        have halive : (r.mining.notice b).worker.isCrashed = false := by
          rw [MiningNode.isCrashed_notice, hrunning]
        exact ⟨_, mineTick, syncTick,
          (hangUp_of_running (r := { r with notices, mining := r.mining.notice b }) halive).symm,
          Queue.eq_of_receive hreceive, hphase⟩
      · rename_i hempty
        have hnotices := Queue.eq_of_receive_nothing hempty
        split at h
        · cases h
          exact ⟨_, mineTick, syncTick, rfl, hnotices, hphase⟩
        · split at h
          · cases h
            exact ⟨_, mineTick, syncTick, rfl, hnotices, hphase⟩
          · split at h
            · cases h
              exact ⟨_, _, syncTick, rfl, hnotices, rfl⟩
            · cases h
  · cases h

/-- A loop that receives turns to its notices before anything else. -/
theorem Receives.mineStep?_of_waiting (hr : r.Receives) {b : Block} {rest : List Block}
    (hwaiting : r.notices.waiting = b :: rest) :
    r.mineStep? = some { r with
      notices := { r.notices with waiting := rest }
      mining := r.mining.notice b } := by
  obtain ⟨mineTick, syncTick, hphase⟩ := hr.running
  rw [mineStep?, hphase]
  simp only [hr.alive, Bool.false_eq_true, if_false, Queue.receive, hwaiting]

omit [BlockLog L] in
theorem Receives.sent (hr : r.Receives) {b : Block} {notices : Queue Block}
    (hsend : r.notices.send? b = some notices) : Receives { r with notices } := by
  obtain ⟨-, rfl⟩ := (Queue.send?_eq_some_iff _ _ _).mp hsend
  exact ⟨hr.running, hr.alive, hr.isOpen, hr.slots⟩

/-- After a step the loop receives as before, unless it has panicked. -/
theorem Receives.mineStep_cases (hr : r.Receives) (h : r.mineStep? = some u) :
    u.HungUp ∨ (u.Receives ∧
      u.notices = { r.notices with waiting := r.notices.waiting.drop 1 }) := by
  obtain ⟨-, v, mineTick, syncTick, rfl, hnotices, hphase⟩ := mineStep?_cases h
  rcases v.hangUp_cases with hgone | ⟨halive, hsame⟩
  · exact Or.inl hgone
  · rw [hsame]
    exact Or.inr ⟨⟨⟨mineTick, syncTick, hphase⟩, halive, by rw [hnotices]; exact hr.isOpen,
      by rw [hnotices]; exact hr.slots⟩, hnotices⟩

/-- A loop that has panicked takes no step. -/
theorem HungUp.mineSteps (hr : r.HungUp) (limit : Nat) : mineSteps limit r = r := by
  cases limit with
  | zero => rfl
  | succ limit =>
    rw [RunningNode.mineSteps]
    cases hstep : r.mineStep? with
    | none => rfl
    | some u => cases hr.crashed.symm.trans (mineStep?_cases hstep).1

/-- A loop that is there in the end was there all the time. -/
theorem Passes.alive {r' : RunningNode L} {sent heard : List Block} (h : Passes r sent heard r')
    (halive : r'.mining.worker.isCrashed = false) : r.mining.worker.isCrashed = false := by
  induction h with
  | nil r => exact halive
  | sent _ _ ih => exact ih halive
  | stepped hstep _ _ => exact (mineStep?_cases hstep).1

/-- The queue neither loses blocks nor changes their order. -/
theorem Passes.waiting_eq {r' : RunningNode L} {sent heard : List Block} (h : Passes r sent heard r')
    (halive : r'.mining.worker.isCrashed = false) :
    r.notices.waiting ++ sent = heard ++ r'.notices.waiting := by
  induction h with
  | nil r => exact List.append_nil _
  | sent hsend _ ih =>
    obtain ⟨-, rfl⟩ := (Queue.send?_eq_some_iff _ _ _).mp hsend
    have hrest := ih halive
    rwa [List.append_assoc] at hrest
  | stepped hstep hafter ih =>
    have hthere := hafter.alive halive
    obtain ⟨-, v, mineTick, syncTick, rfl, hnotices, -⟩ := mineStep?_cases hstep
    rw [hangUp_of_running (by rwa [mining_hangUp] at hthere)] at ih
    have hrest := ih halive
    rw [hnotices] at hrest
    rw [List.append_assoc, ← hrest, ← List.append_assoc, List.take_append_drop]

theorem passes_mineSteps (limit : Nat) (r : RunningNode L) :
    ∃ heard, Passes r [] heard (mineSteps limit r) := by
  induction limit generalizing r with
  | zero => exact ⟨[], .nil r⟩
  | succ limit ih =>
    rw [mineSteps]
    split
    · exact ⟨[], .nil r⟩
    · rename_i hstep
      obtain ⟨heard, h⟩ := ih _
      exact ⟨_, .stepped hstep h⟩

/-- A loop that is given a step for every notice takes all of them, unless it panics. -/
theorem Receives.mineSteps_cases {limit : Nat} (hr : r.Receives)
    (hlimit : r.notices.waiting.length ≤ limit) :
    (mineSteps limit r).HungUp ∨
      ((mineSteps limit r).Receives ∧ (mineSteps limit r).notices.waiting = []) := by
  induction limit generalizing r with
  | zero => exact Or.inr ⟨hr, List.length_eq_zero_iff.mp (Nat.le_zero.mp hlimit)⟩
  | succ limit ih =>
    rw [mineSteps]
    cases hstep : r.mineStep? with
    | none =>
      cases hwaiting : r.notices.waiting with
      | nil => exact Or.inr ⟨hr, rfl⟩
      | cons b rest => cases hstep.symm.trans (hr.mineStep?_of_waiting hwaiting)
    | some u =>
      rcases hr.mineStep_cases hstep with hgone | ⟨hu, hnotices⟩
      · exact Or.inl (by simpa only [hgone.mineSteps limit] using hgone)
      · refine ih hu ?_
        rw [hnotices, List.length_drop]
        omega

/-- A loop that receives makes room for every block that is sent to it.  One that panics meanwhile keeps
nobody waiting. -/
theorem Receives.sendNotices (hr : r.Receives) (bs : List Block) :
    (r.sendNotices bs).1 = true ∧
      ((r.sendNotices bs).2.mining.worker.isCrashed = false →
        ∃ heard, Passes r bs heard (r.sendNotices bs).2) := by
  induction bs generalizing r with
  | nil => exact ⟨rfl, fun _ => ⟨[], .nil r⟩⟩
  | cons b bs ih =>
    rw [RunningNode.sendNotices, if_pos hr.isOpen]
    cases hsend : r.notices.send? b with
    | some notices =>
      obtain ⟨hdone, hheard⟩ := ih (hr.sent hsend)
      refine ⟨hdone, fun halive => ?_⟩
      obtain ⟨heard, hrest⟩ := hheard halive
      exact ⟨heard, .sent hsend hrest⟩
    | none =>
      obtain ⟨heard, hmine⟩ : ∃ heard, Passes r [] heard r.mine := passes_mineSteps _ r
      have hcases : r.mine.HungUp ∨ (r.mine.Receives ∧ r.mine.notices.waiting = []) :=
        hr.mineSteps_cases (by omega)
      rcases hcases with hgone | ⟨hreceives, hempty⟩
      · have hclosed : r.mine.notices.send? b = none := by
          simp [Queue.send?, Queue.hasRoom, hgone.isClosed]
        simp only [hclosed, hgone.isClosed]
        exact ⟨rfl, fun halive => by cases hgone.crashed.symm.trans halive⟩
      · have hroom : r.mine.notices.hasRoom = true := by
          simp [Queue.hasRoom, hempty, hreceives.isOpen, hreceives.slots]
        have hsend' := (Queue.send?_eq_some_iff _ _ b).mpr ⟨hroom, rfl⟩
        simp only [hsend']
        obtain ⟨hdone, hheard⟩ := ih (hreceives.sent hsend')
        refine ⟨hdone, fun halive => ?_⟩
        obtain ⟨heard', hrest⟩ := hheard halive
        exact ⟨_, hmine.append (.sent hsend' hrest)⟩

/-- Where there is room for all of them, the loop need not do anything meanwhile. -/
theorem sendNotices_of_room (hopen : r.notices.isOpen = true) {bs : List Block}
    (hroom : r.notices.waiting.length + bs.length ≤ r.notices.slots) :
    r.sendNotices bs =
      (true, { r with notices := { r.notices with waiting := r.notices.waiting ++ bs } }) := by
  induction bs generalizing r with
  | nil => rw [RunningNode.sendNotices, List.append_nil]
  | cons b bs ih =>
    rw [List.length_cons] at hroom
    have hfree : r.notices.hasRoom = true := by
      rw [Queue.hasRoom, hopen, Bool.true_and, decide_eq_true_eq]
      omega
    rw [RunningNode.sendNotices, if_pos hopen, (Queue.send?_eq_some_iff _ _ b).mpr ⟨hfree, rfl⟩]
    let next : RunningNode L :=
      { r with notices := { r.notices with waiting := r.notices.waiting ++ [b] } }
    have hfits : next.notices.waiting.length + bs.length ≤ next.notices.slots := by
      change (r.notices.waiting ++ [b]).length + bs.length ≤ r.notices.slots
      rw [List.length_append, List.length_singleton]
      omega
    refine (show next.sendNotices bs = _ from ih hopen hfits).trans ?_
    simp only [next, List.append_assoc, List.singleton_append]

end RunningNode
end LedgerNode
