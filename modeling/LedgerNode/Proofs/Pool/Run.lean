import LedgerNode.Proofs.Pool
import LedgerNode.Proofs.SortedMap

/-!
Runs of a pool.  Transactions enter the pool and its queue together, and leave them apart: the pool by
their identities, the queue in order.  What is pooled was accepted and has not been removed since; and
what was accepted is what was heard and what is still to be heard, as long as somebody listens.
-/
namespace LedgerNode

/-- An operation of a pool with its arguments, on either side of its queue. -/
inductive PoolCall where
  | add (tx : Transaction)
  | remove (id : TransactionId)
  | removeAll (ids : List TransactionId)
  | oldestFirst
  | receive
  | close
  deriving DecidableEq

inductive PoolReply where
  | added (result : Except PoolError TransactionId)
  | removed (found : Option Transaction)
  | removedAll (count : Nat)
  | listed (txs : List (TransactionId × Transaction))
  | received (r : Received Transaction)
  | closed

/-- The call takes what stands under this identity out of the pool. -/
def PoolCall.removes (id : TransactionId) : PoolCall → Bool
  | remove id' => id == id'
  | removeAll ids => ids.contains id
  | _ => false

/-- What was asked of a pool and answered, in order. -/
abbrev PoolHistory := List (PoolCall × PoolReply)

namespace PoolHistory

def acceptedBy : PoolCall → PoolReply → List Transaction
  | .add tx, .added (.ok _) => [tx]
  | _, _ => []

def heardFrom : PoolReply → List Transaction
  | .received (.item tx) => [tx]
  | _ => []

/-- The transactions that the pool has taken, once for each time. -/
def accepted (h : PoolHistory) : List Transaction := h.flatMap fun e => acceptedBy e.1 e.2

/-- The transactions that came out of the queue. -/
def heard (h : PoolHistory) : List Transaction := h.flatMap fun e => heardFrom e.2

/-- The transaction was accepted under this identity, and nothing has removed it since. -/
def Pools (h : PoolHistory) (id : TransactionId) (tx : Transaction) : Prop :=
  ∃ before after, h = before ++ (.add tx, .added (.ok id)) :: after ∧
    ∀ e ∈ after, e.1.removes id = false

theorem not_pools_nil (id : TransactionId) (tx : Transaction) : ¬ Pools [] id tx := by
  rintro ⟨before, after, h, -⟩
  simp at h

/-- It was accepted just now, or it was there and is not removed. -/
theorem pools_concat (h : PoolHistory) (c : PoolCall) (r : PoolReply) (id : TransactionId)
    (tx : Transaction) : Pools (h ++ [(c, r)]) id tx ↔
      (c = .add tx ∧ r = .added (.ok id)) ∨ (h.Pools id tx ∧ c.removes id = false) := by
  constructor
  · rintro ⟨before, after, hsplit, hafter⟩
    rcases List.eq_nil_or_concat after with rfl | ⟨after, e, rfl⟩
    · obtain ⟨-, hlast⟩ := List.append_inj' hsplit rfl
      exact Or.inl (by simpa using hlast)
    · have hsplit' : h ++ [(c, r)] = (before ++ (.add tx, .added (.ok id)) :: after) ++ [e] := by
        simpa using hsplit
      obtain ⟨rfl, hlast⟩ := List.append_inj' hsplit' rfl
      obtain rfl := List.singleton_inj.mp hlast
      exact Or.inr ⟨⟨before, after, rfl, fun e he => hafter e (by simp [he])⟩,
        hafter (c, r) (by simp)⟩
  · rintro (⟨rfl, rfl⟩ | ⟨⟨before, after, rfl, hafter⟩, hc⟩)
    · exact ⟨h, [], rfl, nofun⟩
    · refine ⟨before, after ++ [(c, r)], by simp, fun e he => ?_⟩
      rcases List.mem_append.mp he with he | he
      · exact hafter e he
      · rwa [List.mem_singleton.mp he]

@[simp] theorem accepted_append (h h' : PoolHistory) :
    accepted (h ++ h') = accepted h ++ accepted h' := List.flatMap_append

@[simp] theorem heard_append (h h' : PoolHistory) : heard (h ++ h') = heard h ++ heard h' :=
  List.flatMap_append

@[simp] theorem accepted_singleton (c : PoolCall) (r : PoolReply) :
    accepted [(c, r)] = acceptedBy c r := List.append_nil _

@[simp] theorem heard_singleton (c : PoolCall) (r : PoolReply) : heard [(c, r)] = heardFrom r :=
  List.append_nil _

end PoolHistory

namespace Pool

def answer (p : Pool) : PoolCall → PoolReply × Pool
  | .add tx => let (r, p) := p.add tx; (.added r, p)
  | .remove id => let (r, p) := p.remove id; (.removed r, p)
  | .removeAll ids => let (r, p) := p.removeAll ids; (.removedAll r, p)
  | .oldestFirst => (.listed p.oldestFirst, p)
  | .receive => let (r, p) := p.receive; (.received r, p)
  | .close => (.closed, p.close)

def run (p : Pool) : List PoolCall → PoolHistory × Pool
  | [] => ([], p)
  | c :: rest =>
    let (r, p) := p.answer c
    let (h, p) := p.run rest
    ((c, r) :: h, p)

/-- Adding a transaction: it is pooled already, or the queue has no room, or it enters both. -/
theorem add_cases (p : Pool) (tx : Transaction) :
    (p.contains tx.id = true ∧ p.add tx = (.error (.alreadyPooled tx.id), p)) ∨
    (p.contains tx.id = false ∧ p.announced.hasRoom = false ∧
      p.add tx = (.error .unavailable, p)) ∨
    (p.contains tx.id = false ∧ p.announced.hasRoom = true ∧ p.add tx = (.ok tx.id,
      ⟨p.pending.insert tx.id tx, { p.announced with waiting := p.announced.waiting ++ [tx] }⟩)) := by
  cases hpooled : p.contains tx.id with
  | true => exact Or.inl ⟨rfl, by simp [add, hpooled]⟩
  | false =>
    cases hroom : p.announced.hasRoom with
    | true => exact Or.inr (Or.inr ⟨rfl, rfl, by simp [add, hpooled, Queue.send?, hroom]⟩)
    | false => exact Or.inr (Or.inl ⟨rfl, rfl, by simp [add, hpooled, Queue.send?, hroom]⟩)

/-- What is removed was there, and the count says how much that is. -/
theorem size_removeAll (p : Pool) (ids : List TransactionId) :
    (p.removeAll ids).1 + (p.removeAll ids).2.size = p.size := by
  induction ids generalizing p with
  | nil => exact Nat.zero_add _
  | cons id ids ih =>
    have hrest := ih (p.remove id).2
    have hremove : (p.remove id).2.size + (if (p.remove id).1.isSome then 1 else 0) = p.size :=
      p.pending.size_erase id
    rw [removeAll]
    simp only
    omega

section order

/-- Older, or of one second and with the smaller identity. -/
def IsOlder (a b : TransactionId × Transaction) : Prop :=
  a.2.time < b.2.time ∨ a.2.time = b.2.time ∧ compare a.1 b.1 = .lt

def compareAge (a b : TransactionId × Transaction) : Ordering :=
  (compare a.2.time b.2.time).then (compare a.1 b.1)

instance : Std.TransCmp compareAge :=
  inferInstanceAs (Std.TransCmp (compareLex
    (compareOn fun e : TransactionId × Transaction => e.2.time) (compareOn (·.1))))

theorem isBefore_eq (a b : TransactionId × Transaction) : isBefore a b = (compareAge a b).isLE := by
  change (compareAge a b != .gt) = _
  cases compareAge a b <;> rfl

theorem isOlder_iff {a b : TransactionId × Transaction} : IsOlder a b ↔ compareAge a b = .lt := by
  rw [compareAge, Ordering.then_eq_lt, Std.compare_eq_lt, Std.LawfulEqOrd.compare_eq_iff_eq, IsOlder]

theorem isOlder_of_isBefore {a b : TransactionId × Transaction} (h : isBefore a b = true)
    (hne : a.1 ≠ b.1) : IsOlder a b := by
  rw [isBefore_eq] at h
  rw [isOlder_iff]
  cases hc : compareAge a b with
  | lt => rfl
  | eq => exact absurd (Std.LawfulEqOrd.eq_of_compare (Ordering.then_eq_eq.mp hc).2) hne
  | gt => rw [hc] at h; cases h

theorem pairwise_isBefore (es : List (TransactionId × Transaction)) :
    (es.mergeSort isBefore).Pairwise fun a b => isBefore a b = true := by
  refine List.pairwise_mergeSort (fun a b c hab hbc => ?_) (fun a b => ?_) es
  · rw [isBefore_eq] at *
    exact Std.TransCmp.isLE_trans hab hbc
  · have hswap : compareAge b a = (compareAge a b).swap := Std.OrientedCmp.eq_swap
    rw [isBefore_eq, isBefore_eq, hswap]
    cases compareAge a b <;> rfl

/-- Entries of different identities, once sorted, are in strict order. -/
theorem pairwise_isOlder {es : List (TransactionId × Transaction)} (h : (es.map (·.1)).Nodup) :
    (es.mergeSort isBefore).Pairwise IsOlder := by
  have hids : ((es.mergeSort isBefore).map (·.1)).Nodup :=
    ((List.mergeSort_perm es isBefore).map _).nodup_iff.mpr h
  have hne : (es.mergeSort isBefore).Pairwise fun a b => a.1 ≠ b.1 := List.pairwise_map.mp hids
  exact ((pairwise_isBefore es).and hne).imp fun h => isOlder_of_isBefore h.1 h.2

/-- There is one strict order of entries, whichever order they are taken from. -/
theorem eq_of_isOlder {xs ys : List (TransactionId × Transaction)} (hx : xs.Pairwise IsOlder)
    (hy : ys.Pairwise IsOlder) (h : xs.Perm ys) : xs = ys := by
  refine List.Perm.eq_of_pairwise (fun a b _ _ hab hba => ?_) hx hy h
  rw [isOlder_iff] at hab hba
  rw [Std.OrientedCmp.gt_of_lt hab] at hba
  cases hba

/-- The pooled transactions stand in strict order, each once, and the same order comes of any order
in which the entries are found. -/
theorem oldestFirst_sorted (p : Pool) :
    p.oldestFirst.Perm p.pending.entries ∧ p.oldestFirst.Pairwise IsOlder ∧
      ∀ es : List (TransactionId × Transaction), es.Perm p.pending.entries →
        es.mergeSort isBefore = p.oldestFirst := by
  have hperm : p.oldestFirst.Perm p.pending.entries := List.mergeSort_perm _ _
  have hsorted : p.oldestFirst.Pairwise IsOlder := pairwise_isOlder p.pending.nodup_keys
  refine ⟨hperm, hsorted, fun es hes => ?_⟩
  have hids : (es.map (·.1)).Nodup := (hes.map _).nodup_iff.mpr p.pending.nodup_keys
  exact eq_of_isOlder (pairwise_isOlder hids) hsorted
    ((List.mergeSort_perm es isBefore).trans (hes.trans hperm.symm))

end order

/-- A pool whose queue has so many slots, and what has happened to it. -/
structure InStep (slots : Nat) (h : PoolHistory) (p : Pool) : Prop where
  keyed : p.Keyed
  pooled_iff (id : TransactionId) (tx : Transaction) :
    p.pending.get? id = some tx ↔ h.Pools id tx
  slots_eq : p.announced.slots = slots
  length_le : p.announced.waiting.length ≤ slots
  isOpen_iff : p.announced.isOpen = true ↔ .close ∉ h.map (·.1)
  heard_append : p.announced.isOpen = true → h.heard ++ p.announced.waiting = h.accepted

theorem inStep_ofCapacity (capacity : Nat) : InStep (max capacity 1) [] (ofCapacity capacity) where
  keyed := nofun
  pooled_iff id tx := ⟨nofun, fun h => absurd h (PoolHistory.not_pools_nil id tx)⟩
  slots_eq := rfl
  length_le := Nat.zero_le _
  isOpen_iff := ⟨fun _ => nofun, fun _ => rfl⟩
  heard_append _ := rfl

section steps

variable {slots : Nat} {h : PoolHistory} {p : Pool}

/-- A call that takes nothing into the pool and leaves the queue alone. -/
theorem InStep.quiet (hp : InStep slots h p) {c : PoolCall} {r : PoolReply} {q : Pool}
    (hc : .close ≠ c) (haccepted : PoolHistory.acceptedBy c r = [])
    (hheard : PoolHistory.heardFrom r = []) (hqueue : q.announced = p.announced)
    (hpending : ∀ id, q.pending.get? id = if c.removes id then none else p.pending.get? id) :
    InStep slots (h ++ [(c, r)]) q where
  keyed id tx htx := by
    rw [hpending] at htx
    split at htx
    · cases htx
    · exact hp.keyed id tx htx
  pooled_iff id tx := by
    rw [PoolHistory.pools_concat, hpending, ← hp.pooled_iff]
    have hnew : ¬ (c = .add tx ∧ r = .added (.ok id)) := by
      rintro ⟨rfl, rfl⟩
      cases haccepted
    cases c.removes id <;> simp [hnew]
  slots_eq := by rw [hqueue, hp.slots_eq]
  length_le := by rw [hqueue]; exact hp.length_le
  isOpen_iff := by rw [hqueue, hp.isOpen_iff]; simp [hc]
  heard_append hopen := by
    rw [hqueue] at hopen ⊢
    simpa [haccepted, hheard] using hp.heard_append hopen

theorem InStep.add (hp : InStep slots h p) (tx : Transaction) :
    InStep slots (h ++ [(.add tx, .added (p.add tx).1)]) (p.add tx).2 := by
  rcases p.add_cases tx with ⟨-, hadd⟩ | ⟨-, -, hadd⟩ | ⟨hnew, hroom, hadd⟩
  · rw [hadd]
    exact hp.quiet nofun rfl rfl rfl fun _ => rfl
  · rw [hadd]
    exact hp.quiet nofun rfl rfl rfl fun _ => rfl
  · obtain ⟨hopen, hlength⟩ := (Bool.and_eq_true _ _).mp hroom
    rw [hadd]
    refine ⟨fun id tx' hid => ?_, fun id tx' => ?_, hp.slots_eq, ?_, ?_, fun _ => ?_⟩
    · rw [SortedMap.get?_insert] at hid
      split at hid
      · cases hid
        assumption
      · exact hp.keyed id tx' hid
    · rw [PoolHistory.pools_concat, SortedMap.get?_insert, ← hp.pooled_iff]
      by_cases hid : id = tx.id
      · -- nothing stood there before
        subst hid
        have hnone : p.pending.get? tx.id = none := by simpa [contains, SortedMap.contains] using hnew
        simp [hnone]
      · simp [hid, Ne.symm hid, PoolCall.removes]
    · have hslots := hp.slots_eq
      simp at hlength ⊢
      omega
    · simpa using hp.isOpen_iff
    · simp [← hp.heard_append hopen, PoolHistory.acceptedBy, PoolHistory.heardFrom]

theorem InStep.receive (hp : InStep slots h p) :
    InStep slots (h ++ [(.receive, .received p.receive.1)]) p.receive.2 := by
  rcases hwaiting : p.announced.waiting with _ | ⟨tx, rest⟩
  · have hreceive : p.receive =
        ((if p.announced.isOpen then .empty else .closed), p) := by
      simp [Pool.receive, Queue.receive, hwaiting]
    rw [hreceive]
    refine hp.quiet nofun rfl ?_ rfl fun _ => rfl
    cases p.announced.isOpen <;> rfl
  · have hreceive : p.receive =
        (.item tx, { p with announced := { p.announced with waiting := rest } }) := by
      simp [Pool.receive, Queue.receive, hwaiting]
    have hlength := hp.length_le
    rw [hwaiting, List.length_cons] at hlength
    rw [hreceive]
    refine ⟨hp.keyed, fun id tx => ?_, hp.slots_eq, Nat.le_of_succ_le hlength, ?_, fun hopen => ?_⟩
    · simpa [PoolHistory.pools_concat, PoolCall.removes] using hp.pooled_iff id tx
    · simpa using hp.isOpen_iff
    · have hheard := hp.heard_append hopen
      rw [hwaiting] at hheard
      simpa [PoolHistory.acceptedBy, PoolHistory.heardFrom] using hheard

theorem InStep.close (hp : InStep slots h p) : InStep slots (h ++ [(.close, .closed)]) p.close where
  keyed := hp.keyed
  pooled_iff id tx := by
    change p.pending.get? id = some tx ↔ _
    simpa [PoolHistory.pools_concat, PoolCall.removes] using hp.pooled_iff id tx
  slots_eq := hp.slots_eq
  length_le := Nat.zero_le _
  isOpen_iff := ⟨nofun, fun h => absurd (by simp) h⟩
  heard_append := nofun

theorem InStep.answer (hp : InStep slots h p) (c : PoolCall) :
    InStep slots (h ++ [(c, (p.answer c).1)]) (p.answer c).2 := by
  cases c with
  | add tx => exact hp.add tx
  | receive => exact hp.receive
  | close => exact hp.close
  | oldestFirst => exact hp.quiet nofun rfl rfl rfl fun _ => rfl
  | remove id =>
    refine hp.quiet nofun rfl rfl rfl fun id' => ?_
    simp [Pool.answer, PoolCall.removes]
  | removeAll ids =>
    refine hp.quiet nofun rfl rfl (p.announced_removeAll ids) fun id => ?_
    simp [Pool.answer, PoolCall.removes]

theorem InStep.run (hp : InStep slots h p) (cs : List PoolCall) :
    InStep slots (h ++ (p.run cs).1) (p.run cs).2 := by
  induction cs generalizing h p with
  | nil => simpa [Pool.run] using hp
  | cons c cs ih => simpa [Pool.run] using ih (hp.answer c)

end steps

theorem calls_run (p : Pool) (cs : List PoolCall) : (p.run cs).1.map (·.1) = cs := by
  induction cs generalizing p with
  | nil => rfl
  | cons c cs ih => rw [run, List.map_cons, ih]

/-- What a pool says to a new transaction: it is pooled already, or else there is no room for its
announcement, or else it is in.  A refusal changes nothing. -/
theorem add_refuses_iff (p : Pool) (tx : Transaction) :
    (∀ id, (p.add tx).1 = .error (.alreadyPooled id) ↔ id = tx.id ∧ p.contains tx.id = true) ∧
    ((p.add tx).1 = .error .unavailable ↔
      p.contains tx.id = false ∧ p.announced.hasRoom = false) ∧
    (∀ e, (p.add tx).1 = .error e → (p.add tx).2 = p) := by
  rcases p.add_cases tx with ⟨hpooled, hadd⟩ | ⟨hpooled, hroom, hadd⟩ | ⟨hpooled, hroom, hadd⟩ <;>
    rw [hadd]
  · refine ⟨fun id => ⟨?_, fun h => h.1 ▸ rfl⟩, by simp [hpooled], fun _ _ => rfl⟩
    rintro ⟨⟩
    exact ⟨rfl, hpooled⟩
  · simp [hpooled, hroom]
  · simp [hpooled, hroom]

/-- After any run of calls, pool and queue are in step.  Every transaction stands under its own
identity, and just those stand there that were accepted and not removed since.  As long as the receiver
is there, it has heard of the first transactions that were accepted, and those behind them wait for it,
in the order of acceptance and within the slots of the queue.  A transaction is refused exactly if it is
pooled, or else if the queue is full or closed, and then nothing changes.  The count of a removal is what
the pool has lost.  And the list of the pool has each transaction once, in strict order, whichever order
its entries are found in. -/
theorem run_inStep (capacity : Nat) (cs : List PoolCall) :
    let h := ((ofCapacity capacity).run cs).1
    let p := ((ofCapacity capacity).run cs).2
    p.Keyed ∧
    (∀ id tx, p.pending.get? id = some tx ↔ h.Pools id tx) ∧
    (p.announced.isOpen = true ↔ .close ∉ cs) ∧
    (p.announced.isOpen = true → h.heard ++ p.announced.waiting = h.accepted) ∧
    p.announced.waiting.length ≤ max capacity 1 ∧
    (∀ tx,
      (∀ id, (p.add tx).1 = .error (.alreadyPooled id) ↔ id = tx.id ∧ tx.id ∈ p.pending) ∧
      ((p.add tx).1 = .error .unavailable ↔ tx.id ∉ p.pending ∧
        (p.announced.waiting.length = max capacity 1 ∨ p.announced.isOpen = false)) ∧
      ∀ e, (p.add tx).1 = .error e → (p.add tx).2 = p) ∧
    (∀ ids, (p.removeAll ids).1 + (p.removeAll ids).2.size = p.size) ∧
    p.oldestFirst.Perm p.pending.entries ∧ p.oldestFirst.Pairwise IsOlder ∧
    ∀ es : List (TransactionId × Transaction), es.Perm p.pending.entries →
      es.mergeSort isBefore = p.oldestFirst := by
  intro h p
  have hp : InStep (max capacity 1) h p := (inStep_ofCapacity capacity).run cs
  have hopen : p.announced.isOpen = true ↔ .close ∉ cs := by
    rw [hp.isOpen_iff, show h.map (·.1) = cs from calls_run _ cs]
  refine ⟨hp.keyed, hp.pooled_iff, hopen, hp.heard_append, hp.length_le, fun tx => ?_, p.size_removeAll,
    p.oldestFirst_sorted⟩
  have hfull : p.announced.hasRoom = false ↔
      p.announced.waiting.length = max capacity 1 ∨ p.announced.isOpen = false := by
    have hlength := hp.length_le
    rw [Queue.hasRoom, hp.slots_eq]
    cases p.announced.isOpen with
    | false => simp
    | true =>
      simp only [Bool.true_and, decide_eq_false_iff_not, Bool.true_eq_false, or_false]
      omega
  obtain ⟨hpooled, hunavailable, hunchanged⟩ := p.add_refuses_iff tx
  refine ⟨hpooled, ?_, hunchanged⟩
  rw [hunavailable, hfull]
  exact and_congr_left' (by simp [contains, SortedMap.mem_iff, SortedMap.contains])

def sampleAccount : Account := ⟨"0000000000000000000000000000000000000003", by decide⟩

def sampleReward : Transaction := ⟨sampleAccount, sampleAccount, 5, .selfReward, 0⟩

def laterReward : Transaction := { sampleReward with time := 1 }

/-- The later reward comes first and is heard of; the other one is removed, and submitted again. -/
def sampleCalls : List PoolCall :=
  [.add laterReward, .add sampleReward, .receive, .removeAll [sampleReward.id, sampleReward.id],
    .add sampleReward]

theorem id_sampleReward_ne : sampleReward.id ≠ laterReward.id := by decide +kernel

/-- Two transactions are accepted, the first is heard of, and the second is removed and accepted
again. -/
theorem run_resubmission {first second : Transaction} (hids : second.id ≠ first.id) :
    (ofCapacity 2).run [.add first, .add second, .receive, .removeAll [second.id, second.id],
      .add second] =
    ([(.add first, .added (.ok first.id)), (.add second, .added (.ok second.id)),
      (.receive, .received (.item first)), (.removeAll [second.id, second.id], .removedAll 1),
      (.add second, .added (.ok second.id))],
    ⟨.ofList [(first.id, first), (second.id, second)], ⟨[second, second], 2, true⟩⟩) := by
  have hpending : ((((SortedMap.empty.insert first.id first).insert second.id second).erase
      second.id).erase second.id).insert second.id second =
      .ofList [(first.id, first), (second.id, second)] := by
    ext id : 1
    by_cases hid : id = second.id <;> simp [SortedMap.ofList, hid]
  simp [run, answer, add, contains, SortedMap.contains, hids, removeAll, remove, Pool.receive,
    Queue.receive, Queue.send?, Queue.hasRoom, ofCapacity, Queue.ofCapacity, hpending]

/-- Both rewards are pooled and neither is taken again.  The one that was removed meanwhile waits twice
to be heard of, and a removal that names it twice counts it once. -/
theorem run_inStep_resubmitted :
    let h := ((ofCapacity 2).run sampleCalls).1
    let p := ((ofCapacity 2).run sampleCalls).2
    h.accepted = [laterReward, sampleReward, sampleReward] ∧ h.heard = [laterReward] ∧
      p.announced.waiting = [sampleReward, sampleReward] ∧
      p.oldestFirst = [(sampleReward.id, sampleReward), (laterReward.id, laterReward)] ∧
      (∀ tx, tx = sampleReward ∨ tx = laterReward → p.pending.get? tx.id = some tx ∧
        (p.add tx).1 = .error (.alreadyPooled tx.id) ∧ (p.add tx).2 = p) ∧
      (p.removeAll [sampleReward.id, sampleReward.id]).1 = 1 ∧
      (p.removeAll [sampleReward.id, sampleReward.id]).2.size + 1 = p.size := by
  have hrun : (ofCapacity 2).run sampleCalls = _ := run_resubmission id_sampleReward_ne
  have hinStep := run_inStep 2 sampleCalls
  -- nothing below is to compute the run once more
  generalize (ofCapacity 2).run sampleCalls = result at hrun hinStep ⊢
  obtain ⟨h, p⟩ := result
  obtain ⟨hh, hp⟩ := Prod.mk.inj hrun
  dsimp only at hinStep ⊢
  obtain ⟨-, hpools, hopen, hheard, -, hadd, hremove, -, -, hlisted⟩ := hinStep
  have haccepted : h.accepted = [laterReward, sampleReward, sampleReward] := by
    rw [hh]
    rfl
  have hheard' : h.heard = [laterReward] := by
    rw [hh]
    rfl
  have hwaiting := hheard (hopen.mpr (by simp [sampleCalls]))
  rw [hheard', haccepted, List.singleton_append, List.cons.injEq] at hwaiting
  have hpooled (tx : Transaction) (htx : tx = sampleReward ∨ tx = laterReward) :
      p.pending.get? tx.id = some tx := by
    refine (hpools tx.id tx).mpr ?_
    rw [hh]
    rcases htx with rfl | rfl
    · exact ⟨[_, _, _, _], [], rfl, nofun⟩
    · exact ⟨[], _, rfl, by simp [PoolCall.removes, id_sampleReward_ne.symm]⟩
  have hcount : (p.removeAll [sampleReward.id, sampleReward.id]).1 = 1 := by
    simp [removeAll, remove, hpooled sampleReward (Or.inl rfl)]
  have hentries : List.Perm [(sampleReward.id, sampleReward), (laterReward.id, laterReward)]
      p.pending.entries := by
    have hnew : (SortedMap.empty.insert laterReward.id laterReward).get? sampleReward.id = none := by
      simp [id_sampleReward_ne]
    rw [hp]
    exact (SortedMap.perm_insert sampleReward hnew).symm
  have hbefore : isBefore (sampleReward.id, sampleReward) (laterReward.id, laterReward) = true := by
    have hage : compare sampleReward.time laterReward.time = .lt := rfl
    rw [isBefore, hage]
    rfl
  refine ⟨haccepted, hheard', hwaiting.2, ?_, fun tx htx => ?_, hcount, ?_⟩
  · rw [← hlisted _ hentries]
    exact List.mergeSort_of_pairwise (by simp [hbefore])
  · obtain ⟨hrefused, -, hunchanged⟩ := hadd tx
    have hagain := (hrefused tx.id).mpr ⟨rfl, Option.isSome_iff_exists.mpr ⟨tx, hpooled tx htx⟩⟩
    exact ⟨hpooled tx htx, hagain, hunchanged _ hagain⟩
  · rw [← hremove [sampleReward.id, sampleReward.id], Nat.add_comm, hcount]

end Pool
end LedgerNode
