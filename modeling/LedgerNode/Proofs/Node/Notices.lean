import LedgerNode.Proofs.Node.MinedOnce

/-!
What the mining loop hears of synchronized blocks, and when.  Notices come late, and several may
wait while one attempt ends and the next one begins.  An attempt that is under way stands on the tip,
or is cancelled, or there is a notice still to come that will cancel it.
-/
namespace LedgerNode

/-- A place in the chain: what stands before it, and how high it is. -/
structure Place where
  parent : Digest
  height : UInt64

def Snapshot.next (s : Snapshot) : Place := ⟨s.tip, s.height + 1⟩

def Candidate.place (c : Candidate) : Place := ⟨c.parent, c.height⟩

/-- The block that comes of the candidate is the next one. -/
def Candidate.Extends (c : Candidate) (s : Snapshot) : Prop :=
  c.parent = s.tip ∧ c.height = s.height + 1

namespace Attempt

/-- The attempt has the identities of the transactions in its candidate. -/
def IsLabelled (a : Attempt) : Prop := a.ids = a.candidate.transactions.map (·.id)

/-- A block that is lower than the candidate and has none of its transactions changes nothing. -/
theorem notice_eq_self {a : Attempt} {b : Block} (hlabelled : a.IsLabelled)
    (hlower : b.header.height < a.candidate.height)
    (hapart : ∀ tx ∈ b.transactions, ∀ tx' ∈ a.candidate.transactions, tx.id ≠ tx'.id) :
    a.notice b = a := by
  have hoverlaps : b.transactionIds.any a.ids.contains = false := by
    rw [List.any_eq_false, hlabelled]
    intro id hid
    obtain ⟨tx, htx, rfl⟩ := List.mem_map.mp hid
    simpa using fun tx' htx' => (hapart tx htx tx' htx').symm
  have hstale : decide (a.candidate.height ≤ b.header.height) = false := by simpa using hlower
  rw [notice, isObsoleteBy, hoverlaps, hstale, Bool.or_false, Bool.or_false]

end Attempt

namespace MineStage

/-- The place that the loop wants to fill, unless its attempt is cancelled. -/
def place? : MineStage → Option Place
  | looked s => some s.next
  | evicting start _ => start.attempt?.map (·.candidate.place)
  | searching a => if a.isCancelled then none else some a.candidate.place
  | idle | committing _ _ _ | clearing _ | crashed => none

/-- An attempt that outlasts the notice of a block is meant to stand above it. -/
theorem place?_of_notice {m : MineStage} {b : Block} {p : Place} (hwaiting : m.isWaiting = true)
    (h : (m.notice b).place? = some p) : m.place? = some p ∧ b.header.height < p.height := by
  cases m with
  | idle => cases h
  | searching a =>
    by_cases hcancelled : a.isCancelled = true
    · simp [notice, place?, Attempt.notice, hcancelled] at h
    · by_cases hobsolete : a.isObsoleteBy b = true
      · simp [notice, place?, Attempt.notice, hobsolete] at h
      · have hplace : a.candidate.place = p := by
          simpa [notice, place?, Attempt.notice, hcancelled, hobsolete] using h
        have hlower : ¬ a.candidate.height ≤ b.header.height := by
          intro hle
          exact hobsolete (by simp [Attempt.isObsoleteBy, hle])
        rw [← hplace]
        exact ⟨by simp [place?, hcancelled], UInt64.not_le.mp hlower⟩
  | _ => cases hwaiting

end MineStage

/-- The blocks of a round that are committed, and of which the mining loop was not told. -/
def SyncStage.unsent : SyncStage → List Block
  | adding done _ | committing done _ _ => done
  | notifying left => left
  | crashed unsent => unsent
  | idle | purging _ _ => []

def NodeEvent.synced? : NodeEvent → Option Block
  | synced b => some b
  | _ => none

theorem Queue.waiting_of_receive {α : Type} {q q' : Queue α} {x : α}
    (h : q.receive = (.item x, q')) : q.waiting = x :: q'.waiting ∧ q'.isOpen = q.isOpen := by
  unfold receive at h
  split at h
  · rename_i hwaiting
    cases h
    exact ⟨hwaiting, rfl⟩
  · split at h <;> cases h

namespace SharedNode

variable {L : Type} [BlockLog L]

def next (s : SharedNode L) : Place := s.node.ledger.snapshot.next

/-- The synchronized blocks of which the mining loop has not heard, in order. -/
def unheard (s : SharedNode L) : List Block := s.notices.waiting ++ s.round.unsent

def syncedBlocks (tr : List NodeEvent) : List Block := tr.filterMap (·.synced?)

theorem mem_syncedBlocks {tr : List NodeEvent} {b : Block} :
    b ∈ syncedBlocks tr ↔ .synced b ∈ tr := by
  rw [syncedBlocks, List.mem_filterMap]
  constructor
  · rintro ⟨e, he, hb⟩
    cases e with
    | synced c =>
      cases hb
      exact he
    | _ => cases hb
  · exact fun h => ⟨_, h, rfl⟩

/-- A run, and the blocks of which the mining loop hears in it. -/
inductive Hearing (s : SharedNode L) : List NodeEvent → List Block → SharedNode L → Prop
  | nil : Hearing s [] [] s
  | notice {tr heard t b q} (h : Hearing s tr heard t) (hwaiting : t.miner.isWaiting = true)
      (hreceive : t.notices.receive = (.item b, q)) :
      Hearing s tr (heard ++ [b]) ⟨t.node.noticeBlock b, q, t.round, t.miner.notice b⟩
  /-- Any other step takes no notice from the queue, except that a mining loop that panics leaves none
  in it. -/
  | step {tr heard t e u} (h : Hearing s tr heard t) (hstep : Step t e u)
      (hqueue : t.notices.waiting <+: u.notices.waiting ∨ u.miner = .crashed) :
      Hearing s (tr ++ e.toList) heard u

section steps

variable {s t : SharedNode L} {e : Option NodeEvent}

/-- A step takes a notice from the queue, or leaves what waits there to a loop that may hear of it. -/
theorem Step.notice_or_prefix (h : Step s e t) :
    (∃ b q, s.miner.isWaiting = true ∧ s.notices.receive = (.item b, q) ∧ e = none ∧
      t = ⟨s.node.noticeBlock b, q, s.round, s.miner.notice b⟩) ∨
    s.notices.waiting <+: t.notices.waiting ∨ t.miner = .crashed := by
  cases h with
  | sync h =>
    cases h with
    | @notify n q q' b left m hsend =>
      obtain ⟨-, rfl⟩ := (Queue.send?_eq_some_iff _ _ _).mp hsend
      exact Or.inr (Or.inl (List.prefix_append _ _))
    | _ => exact Or.inr (Or.inl (List.prefix_refl _))
  | mine h =>
    cases h with
    | notice hwaiting hreceive => exact Or.inl ⟨_, _, hwaiting, hreceive, rfl, rfl⟩
    | crash => exact Or.inr (Or.inr rfl)
    | _ => exact Or.inr (Or.inl (List.prefix_refl _))
  | submit => exact Or.inr (Or.inl (List.prefix_refl _))

/-- A mining loop that has panicked never does anything again. -/
theorem Step.miner_of_crashed (h : Step s e t) (hs : s.miner = .crashed) : t.miner = .crashed := by
  cases h with
  | sync h => exact h.miner_eq.trans hs
  | submit => exact hs
  | mine h =>
    cases h with
    | notice hwaiting =>
      cases hs
      cases hwaiting
    | crash => rfl
    | _ => first | exact hs | cases hs

/-- As long as the mining loop is there, it has still to hear of every block that is synchronized. -/
theorem Step.unheard_eq (h : Step s e t) (hopen : s.notices.isOpen = true)
    (hqueue : s.notices.waiting <+: t.notices.waiting) (hrunning : t.miner ≠ .crashed) :
    t.unheard = s.unheard ++ syncedBlocks e.toList ∧ t.notices.isOpen = true := by
  cases h with
  | sync h =>
    cases h with
    | notify hsend =>
      obtain ⟨-, rfl⟩ := (Queue.send?_eq_some_iff _ _ _).mp hsend
      exact ⟨by simp [unheard, SyncStage.unsent, syncedBlocks], hopen⟩
    | unheard hclosed => exact absurd (hclosed.symm.trans hopen) nofun
    | crash hpanics => cases hpanics <;> exact ⟨by simp [unheard, SyncStage.unsent, syncedBlocks], hopen⟩
    | _ => exact ⟨by simp [unheard, SyncStage.unsent, syncedBlocks, NodeEvent.synced?], hopen⟩
  | mine h =>
    cases h with
    | notice _ hreceive =>
      have hlonger := hqueue.length_le
      rw [(Queue.waiting_of_receive hreceive).1] at hlonger
      exact absurd hlonger (Nat.not_succ_le_self _)
    | crash => exact absurd rfl hrunning
    | _ => exact ⟨by simp [unheard, syncedBlocks, NodeEvent.synced?], hopen⟩
  | submit => exact ⟨by simp [unheard, syncedBlocks, NodeEvent.synced?], hopen⟩

/-- The loop wants to fill the place behind the tip at the moment when it looks at the ledger. -/
theorem Step.place?_cases (h : Step s e t) {p : Place} (hp : t.miner.place? = some p) :
    s.miner.place? = some p ∨ p = t.next := by
  cases h with
  | sync h => exact Or.inl (h.miner_eq ▸ hp)
  | submit => exact Or.inl hp
  | mine h =>
    cases h with
    | look => exact Or.inr (Option.some.inj hp).symm
    | @read n q r s miner now =>
      obtain ⟨a, ha, rfl⟩ := Option.map_eq_some_iff.mp hp
      obtain ⟨height, hnext, rfl⟩ := Attempt.eq_of_ofKept (MiningStart.attempt?_eq_some_iff.mp ha)
      rw [Snapshot.eq_of_nextHeight? hnext]
      exact Or.inl rfl
    | notice hwaiting => exact Or.inl (MineStage.place?_of_notice hwaiting hp).1
    | @search n q r a =>
      left
      by_cases hcancelled : a.isCancelled = true
      · simp [MineStage.place?, hcancelled] at hp
      · simpa [MineStage.place?, MiningStart.attempt?, hcancelled] using hp
    | _ => first | exact Or.inl hp | cases hp

/-- While the loop wants to fill a place, only synchronization moves the tip. -/
theorem Step.next_cases (h : Step s e t) {p : Place} (hp : t.miner.place? = some p) :
    t.next = s.next ∨ ∃ b, e = some (.synced b) ∧ b.header.height = s.next.height := by
  cases h with
  | sync h =>
    cases h with
    | commit hcommit =>
      obtain ⟨hblock, hheight⟩ := VettedBlock.height_of_commit hcommit
      rw [← hblock, ← Snapshot.nextHeight?_eq_some_iff] at hheight
      exact Or.inr ⟨_, rfl, Snapshot.eq_of_nextHeight? hheight⟩
    | refuse hcommit =>
      exact Or.inl (congrArg Snapshot.next (VettedBlock.snapshot_of_refused hcommit))
    | _ => exact Or.inl rfl
  | mine h =>
    cases h with
    | commit => cases hp
    | refuse => cases hp
    | _ => exact Or.inl rfl
  | submit => exact Or.inl rfl

theorem Step.isLabelled (h : Step s e t) (hkeyed : s.node.pool.Keyed)
    (hs : ∀ a, s.miner.attempt? = some a → a.IsLabelled) {a : Attempt}
    (ha : t.miner.attempt? = some a) : a.IsLabelled := by
  cases h with
  | sync h => exact hs a (h.miner_eq ▸ ha)
  | submit => exact hs a ha
  | mine h =>
    cases h with
    | @read n q r s miner now =>
      obtain ⟨height, -, rfl⟩ := Attempt.eq_of_ofKept (MiningStart.attempt?_eq_some_iff.mp ha)
      rw [Attempt.IsLabelled, List.map_map, List.map_inj_left]
      exact fun e he =>
        hkeyed e.1 e.2 ((n.pool.mem_oldestFirst e).mp (Snapshot.mem_of_mem_kept he))
    | @notice n q r m b q' =>
      cases m with
      | searching a' =>
        cases ha
        exact hs a' rfl
      | _ => exact hs a ha
    | _ => first | exact hs a ha | cases ha

/-- A synchronized block stands where the ledger is then. -/
theorem Step.height_of_synced {b : Block} (h : Step s (some (.synced b)) t) :
    b.header.height = t.height := by
  cases h with
  | sync h =>
    cases h with
    | commit hcommit => exact (VettedBlock.height_of_commit hcommit).1
  | mine h => cases h

end steps

section informed

variable {t : SharedNode L} {tr : List NodeEvent} {heard : List Block}

omit [BlockLog L]

/-- What the mining loop has heard, has still to hear, and is about. -/
structure Informed (tr : List NodeEvent) (heard : List Block) (t : SharedNode L) : Prop where
  isOpen : t.notices.isOpen = true
  synced : heard ++ t.unheard = syncedBlocks tr
  below {b : Block} : b ∈ t.unheard → b.header.height ≤ t.height
  /-- A place that is not behind the tip any more is taken by a block still to be heard of. -/
  place {p : Place} : t.miner.place? = some p →
    p = t.next ∨ ∃ b ∈ t.unheard, p.height ≤ b.header.height
  labelled {a : Attempt} : t.miner.attempt? = some a → a.IsLabelled

theorem informed_begin (n : Node L) (slots : Nat) :
    Informed [] [] (⟨n, .ofCapacity slots, .idle, .idle⟩ : SharedNode L) where
  isOpen := rfl
  synced := rfl
  below := nofun
  place := nofun
  labelled := nofun

/-- Once all synchronized blocks are heard of, no obsolete attempt is left. -/
theorem Informed.extends_of_heard (h : Informed tr heard t) (hheard : heard = syncedBlocks tr)
    {a : Attempt} (ha : t.miner = .searching a) :
    a.isCancelled = true ∨ a.candidate.Extends t.node.ledger.snapshot := by
  by_cases hcancelled : a.isCancelled = true
  · exact Or.inl hcancelled
  · have hplace : t.miner.place? = some a.candidate.place := by
      rw [ha, MineStage.place?, if_neg hcancelled]
    have hnone : t.unheard = [] := by
      have hsynced := h.synced
      rw [hheard] at hsynced
      simpa using hsynced
    rcases h.place hplace with htip | ⟨b, hb, -⟩
    · exact Or.inr ⟨congrArg Place.parent htip, congrArg Place.height htip⟩
    · rw [hnone] at hb
      cases hb

/-- A late notice leaves an attempt on the tip alone, unless they share a transaction. -/
theorem Informed.notice_eq_self (h : Informed tr heard t) (hroom : t.height.toNat < 2 ^ 64 - 1)
    {a : Attempt} (ha : t.miner = .searching a) {b : Block} {q : Queue Block}
    (hreceive : t.notices.receive = (.item b, q))
    (hextends : a.candidate.Extends t.node.ledger.snapshot)
    (hapart : ∀ tx ∈ b.transactions, ∀ tx' ∈ a.candidate.transactions, tx.id ≠ tx'.id) :
    a.notice b = a := by
  have hb : b ∈ t.unheard := by
    rw [unheard, (Queue.waiting_of_receive hreceive).1]
    exact List.mem_cons_self
  have hbelow := UInt64.le_iff_toNat_le.mp (h.below hb)
  have hlower : b.header.height < a.candidate.height := by
    rw [hextends.2, UInt64.lt_iff_toNat_lt, UInt64.toNat_add, UInt64.toNat_one]
    rw [height] at hroom hbelow
    omega
  exact Attempt.notice_eq_self (h.labelled (by rw [ha]; rfl)) hlower hapart

end informed

section runs

variable {s t : SharedNode L} {tr : List NodeEvent} {heard : List Block}

theorem Hearing.steps (h : Hearing s tr heard t) : Steps s tr t := by
  induction h with
  | nil => exact .nil s
  | notice _ hwaiting hreceive ih => simpa using ih.snoc (.mine (.notice hwaiting hreceive))
  | step _ hstep _ ih => exact ih.snoc hstep

/-- In every run the mining loop hears of some blocks. -/
theorem Steps.exists_hearing (h : Steps s tr t) : ∃ heard, Hearing s tr heard t := by
  induction h with
  | nil => exact ⟨[], .nil⟩
  | snoc _ hstep ih =>
    obtain ⟨heard, hheard⟩ := ih
    rcases hstep.notice_or_prefix with ⟨b, q, hwaiting, hreceive, rfl, rfl⟩ | hqueue
    · exact ⟨heard ++ [b], by simpa using hheard.notice hwaiting hreceive⟩
    · exact ⟨heard, hheard.step hstep hqueue⟩

theorem Informed.notice {b : Block} {q : Queue Block} (h : Informed tr heard t)
    (hkeyed : t.node.pool.Keyed) (hwaiting : t.miner.isWaiting = true)
    (hreceive : t.notices.receive = (.item b, q)) :
    Informed tr (heard ++ [b]) ⟨t.node.noticeBlock b, q, t.round, t.miner.notice b⟩ := by
  obtain ⟨htook, hopen⟩ := Queue.waiting_of_receive hreceive
  have hunheard : t.unheard = b :: (q.waiting ++ t.round.unsent) := by
    rw [unheard, htook, List.cons_append]
  have hstep : Step t none _ := .mine (.notice hwaiting hreceive)
  refine ⟨hopen.trans h.isOpen, ?_, fun hc => ?_, fun hp => ?_,
    hstep.isLabelled hkeyed fun _ => h.labelled⟩
  · rw [← h.synced, hunheard]
    simp [unheard]
  · exact h.below (hunheard ▸ List.mem_cons_of_mem b hc)
  · obtain ⟨hbefore, hlower⟩ := MineStage.place?_of_notice hwaiting hp
    rcases h.place hbefore with htip | ⟨c, hc, hle⟩
    · exact Or.inl htip
    · rw [hunheard] at hc
      rcases List.mem_cons.mp hc with rfl | hc
      · exact absurd hle (UInt64.not_le.mpr hlower)
      · exact Or.inr ⟨c, hc, hle⟩

theorem Informed.step {e : Option NodeEvent} {u : SharedNode L} (h : Informed tr heard t)
    (hkeyed : t.node.pool.Keyed) (hstep : Step t e u)
    (hqueue : t.notices.waiting <+: u.notices.waiting) (hrunning : u.miner ≠ .crashed) :
    Informed (tr ++ e.toList) heard u := by
  obtain ⟨hunheard, hopen⟩ := hstep.unheard_eq h.isOpen hqueue hrunning
  refine ⟨hopen, ?_, fun hb => ?_, fun hp => ?_, hstep.isLabelled hkeyed fun _ => h.labelled⟩
  · rw [hunheard, ← List.append_assoc, h.synced]
    exact List.filterMap_append.symm
  · rw [hunheard] at hb
    rcases List.mem_append.mp hb with hb | hb
    · refine UInt64.le_trans (h.below hb) (UInt64.le_iff_toNat_le.mpr ?_)
      exact hstep.height_eq ▸ Nat.le_add_right _ _
    · rw [Option.mem_toList.mp (mem_syncedBlocks.mp hb)] at hstep
      exact UInt64.le_of_eq hstep.height_of_synced
  · rcases hstep.place?_cases hp with hbefore | htip
    · rcases h.place hbefore with htip | ⟨b, hb, hle⟩
      · rcases hstep.next_cases hp with hsame | ⟨b, rfl, hb⟩
        · exact Or.inl (htip.trans hsame.symm)
        · refine Or.inr ⟨b, ?_, ?_⟩
          · simp [hunheard, mem_syncedBlocks]
          · rw [htip, hb]
            exact UInt64.le_refl _
      · exact Or.inr ⟨b, by simp [hunheard, hb], hle⟩
    · exact Or.inl htip

/-- As long as the mining loop has not panicked, it is informed. -/
theorem Hearing.informed {n : Node L} {slots : Nat} (hkeyed : n.pool.Keyed)
    (h : Hearing ⟨n, .ofCapacity slots, .idle, .idle⟩ tr heard t) (hrunning : t.miner ≠ .crashed) :
    Informed tr heard t := by
  induction h with
  | nil => exact informed_begin n slots
  | @notice tr heard t b q h hwaiting hreceive ih =>
    refine (ih fun hcrashed => ?_).notice (h.steps.keyed hkeyed) hwaiting hreceive
    rw [hcrashed] at hwaiting
    cases hwaiting
  | @step tr heard t e u h hstep hqueue ih =>
    have hinformed := ih fun hcrashed => hrunning (hstep.miner_of_crashed hcrashed)
    exact hinformed.step (h.steps.keyed hkeyed) hstep (hqueue.resolve_right hrunning) hrunning

/-- Where every synchronized block waits to be heard of, none was heard of. -/
theorem Steps.hearing_nil {n : Node L} {slots : Nat} (hkeyed : n.pool.Keyed)
    (h : Steps ⟨n, .ofCapacity slots, .idle, .idle⟩ tr t) (hrunning : t.miner ≠ .crashed)
    (hunheard : t.unheard = syncedBlocks tr) :
    Hearing ⟨n, .ofCapacity slots, .idle, .idle⟩ tr [] t := by
  obtain ⟨heard, hheard⟩ := h.exists_hearing
  have hsynced := (hheard.informed hkeyed hrunning).synced
  rw [hunheard, List.append_left_eq_self] at hsynced
  exact hsynced ▸ hheard

/-- A cancelled attempt stays so and brings no block, until it is over. -/
theorem Step.searching_cancelled {e : Option NodeEvent} (h : Step s e t) {a : Attempt}
    (hs : s.miner = .searching a) (hcancelled : a.isCancelled = true) :
    (∀ b, e ≠ some (.mined b)) ∧
      (t.miner = .idle ∨ ∃ a', t.miner = .searching a' ∧ a'.candidate = a.candidate ∧
        a'.isCancelled = true) := by
  cases h with
  | sync h =>
    refine ⟨?_, Or.inr ⟨a, h.miner_eq.trans hs, rfl, hcancelled⟩⟩
    cases h <;> nofun
  | submit => exact ⟨nofun, Or.inr ⟨a, hs, rfl, hcancelled⟩⟩
  | mine h =>
    cases h with
    | hear => exact ⟨nofun, Or.inr ⟨a, hs, rfl, hcancelled⟩⟩
    | notice =>
      cases hs
      exact ⟨nofun, Or.inr ⟨_, rfl, rfl, Attempt.isCancelled_notice _ hcancelled⟩⟩
    | abandon => exact ⟨nofun, Or.inl rfl⟩
    | check hlive =>
      cases hs
      exact absurd (hlive.symm.trans hcancelled) nofun
    | crash hpanics =>
      cases hs
      cases hpanics with
      | check hlive => exact absurd (hlive.symm.trans hcancelled) nofun
    | _ => cases hs

/-- The attempt under way is cancelled: it is under way still, or it was over before anything was
mined. -/
theorem Steps.searching_cancelled (h : Steps s tr t) {a : Attempt} (hs : s.miner = .searching a)
    (hcancelled : a.isCancelled = true) :
    (∃ a', t.miner = .searching a' ∧ a'.candidate = a.candidate ∧ a'.isCancelled = true ∧
      ∀ b, .mined b ∉ tr) ∨
    ∃ before after v, tr = before ++ after ∧ Steps s before v ∧ v.miner = .idle ∧
      (∀ b, .mined b ∉ before) ∧ Steps v after t := by
  induction h with
  | nil => exact Or.inl ⟨a, hs, rfl, hcancelled, nofun⟩
  | @snoc m t tr e hsteps hstep ih =>
    rcases ih with ⟨a', hm, hcandidate, ha', hnone⟩ |
      ⟨before, after, v, rfl, hbefore, hv, hnone, hafter⟩
    · obtain ⟨he, hend⟩ := hstep.searching_cancelled hm ha'
      have hnone' (b : Block) : .mined b ∉ tr ++ e.toList := by
        rw [List.mem_append, not_or]
        exact ⟨hnone b, fun hb => he b (Option.mem_toList.mp hb)⟩
      rcases hend with hidle | ⟨a'', ht, hcandidate', ha''⟩
      · exact Or.inr ⟨_, [], t, (List.append_nil _).symm, hsteps.snoc hstep, hidle, hnone', .nil t⟩
      · exact Or.inl ⟨a'', ht, hcandidate'.trans hcandidate, ha'', hnone'⟩
    · exact Or.inr ⟨before, _, v, List.append_assoc _ _ _, hbefore, hv, hnone, hafter.snoc hstep⟩

/-- Obsolete attempts do not outlive their notices.  Whatever the interleaving, once the mining loop
has heard of every synchronized block, the attempt under way stands on the tip unless it is cancelled.
No notice cancels one that stands on the tip and has no transaction of the block; and one that is
cancelled is over before anything else is mined, even if its block was found.  Heights are words, and
the ledger is taken to stay below the last one. -/
theorem obsolete_cancelled {n : Node L} {slots : Nat} (hkeyed : n.pool.Keyed)
    (h : Hearing ⟨n, .ofCapacity slots, .idle, .idle⟩ tr heard t)
    (hroom : n.ledger.snapshot.height.toNat + commits tr < 2 ^ 64 - 1) {a : Attempt}
    (ha : t.miner = .searching a) :
    (heard = syncedBlocks tr →
      a.isCancelled = true ∨ a.candidate.Extends t.node.ledger.snapshot) ∧
    (∀ b q, t.notices.receive = (.item b, q) → a.candidate.Extends t.node.ledger.snapshot →
      (∀ tx ∈ b.transactions, ∀ tx' ∈ a.candidate.transactions, tx.id ≠ tx'.id) →
      t.miner.notice b = .searching a) ∧
    (a.isCancelled = true →
      (∀ (m : Node L) (b : Block), m.finishAttempt a (.ok b) = (some .cancelled, m)) ∧
      ∀ us u, Steps t us u →
        (∃ a', u.miner = .searching a' ∧ a'.candidate = a.candidate ∧ a'.isCancelled = true ∧
          ∀ b, .mined b ∉ us) ∨
        ∃ before after v, us = before ++ after ∧ Steps t before v ∧ v.miner = .idle ∧
          (∀ b, .mined b ∉ before) ∧ Steps v after u) := by
  have hinformed := h.informed hkeyed (ha ▸ nofun)
  have hheight : t.height.toNat = n.ledger.snapshot.height.toNat + commits tr := h.steps.height_eq
  refine ⟨fun hheard => hinformed.extends_of_heard hheard ha, ?_, fun hcancelled => ⟨?_, ?_⟩⟩
  · intro b q hreceive hextends hapart
    rw [ha, MineStage.notice,
      hinformed.notice_eq_self (by omega) ha hreceive hextends hapart]
  · exact fun m b => m.finishAttempt_of_isCancelled b hcancelled
  · exact fun us u hsteps => hsteps.searching_cancelled ha hcancelled

end runs

section sample

open Ledger

/-- An empty block of a peer is committed, and the reward is still pooled. -/
def aheadNode : Node MemoryLog where
  ledger := ⟨⟨.empty, sampleBlock.digest, 1⟩, [], ⟨[.ofBlock sampleBlock]⟩⟩
  pool := poolOf [sampleReward] [sampleReward]
  registry := .absent

/-- The attempt that begins once that block is there. -/
def freshAttempt : Attempt :=
  ⟨⟨sampleBlock.digest, 2, 0, sampleMiner, [sampleReward]⟩, [sampleReward.id], false⟩

theorem startAttempt_aheadNode :
    aheadNode.startAttempt sampleMiner 0 = (.attempt freshAttempt, aheadNode) := by
  have hsorted : aheadNode.pool.oldestFirst = [(sampleReward.id, sampleReward)] :=
    List.mergeSort_singleton _
  rw [Node.startAttempt, hsorted]
  rfl

theorem adopt_aheadNode : emptyNode.adopt [sampleBlock] = (.ok 1, aheadNode) := by
  rw [Node.adopt_eq]
  rfl

def syncTrace (b : Block) : List NodeEvent := [.fetched [b], .purged b, .synced b]

/-- The block of a peer arrives during the attempt, and its notice waits. -/
theorem steps_staleAttempt :
    Steps ⟨emptyNode, .ofCapacity 1, .idle, .idle⟩ (syncTrace rewardBlock)
      ⟨syncedNode, ⟨[rewardBlock], 1, true⟩, .notifying [], .searching staleAttempt⟩ := by
  have hstart := steps_startAttempt emptyNode (.ofCapacity 1) .idle startAttempt_emptyNode
  have hsync := steps_adopt emptyNode (.ofCapacity 1) (.searching staleAttempt) adopt_emptyNode
  have hsend : (Queue.ofCapacity 1).send? rewardBlock = some ⟨[rewardBlock], 1, true⟩ := rfl
  exact (hstart.append hsync).append (Step.sync (.notify hsend)).steps

/-- The attempt begins after the block is there, and before its notice is heard. -/
theorem steps_freshAttempt :
    Steps ⟨emptyNode, .ofCapacity 1, .idle, .idle⟩ (syncTrace sampleBlock)
      ⟨aheadNode, ⟨[sampleBlock], 1, true⟩, .notifying [], .searching freshAttempt⟩ := by
  have hsync := steps_adopt emptyNode (.ofCapacity 1) .idle adopt_aheadNode
  have hsend : (Queue.ofCapacity 1).send? sampleBlock = some ⟨[sampleBlock], 1, true⟩ := rfl
  have hstart := steps_startAttempt aheadNode ⟨[sampleBlock], 1, true⟩ (.notifying [])
    startAttempt_aheadNode
  exact (hsync.append (Step.sync (.notify hsend)).steps).append hstart

/-- One attempt is overtaken by a block and cancelled when its notice is heard; another one begins on
top of a block and survives the late notice. -/
theorem obsolete_cancelled_lateNotices :
    (∃ t, Hearing ⟨emptyNode, .ofCapacity 1, .idle, .idle⟩ (syncTrace rewardBlock) [rewardBlock] t ∧
      t.miner = .searching (staleAttempt.notice rewardBlock) ∧
      (staleAttempt.notice rewardBlock).isCancelled = true ∧
      ∀ b, t.node.finishAttempt (staleAttempt.notice rewardBlock) (.ok b) = (some .cancelled, t.node)) ∧
    ∃ t q, Hearing ⟨emptyNode, .ofCapacity 1, .idle, .idle⟩ (syncTrace sampleBlock) [] t ∧
      t.notices.receive = (.item sampleBlock, q) ∧
      t.miner.notice sampleBlock = .searching freshAttempt := by
  have hroom (b : Block) :
      emptyNode.ledger.snapshot.height.toNat + commits (syncTrace b) < 2 ^ 64 - 1 :=
    show 0 + 1 < 2 ^ 64 - 1 by decide
  constructor
  · have hbefore := steps_staleAttempt.hearing_nil keyed_emptyNode nofun rfl
    have hheard := hbefore.notice rfl rfl
    obtain ⟨hdone, -, hdropped⟩ := obsolete_cancelled keyed_emptyNode hheard (hroom _) rfl
    have hcancelled : (staleAttempt.notice rewardBlock).isCancelled = true := by
      refine (hdone rfl).resolve_right fun hextends => ?_
      exact absurd hextends.2 (by decide)
    exact ⟨_, hheard, rfl, hcancelled, (hdropped hcancelled).1 _⟩
  · have hheard := steps_freshAttempt.hearing_nil keyed_emptyNode nofun rfl
    obtain ⟨-, hkept, -⟩ := obsolete_cancelled keyed_emptyNode hheard (hroom _) rfl
    exact ⟨_, _, hheard, rfl, hkept sampleBlock _ rfl ⟨rfl, rfl⟩ nofun⟩

end sample

end SharedNode
end LedgerNode
