import Mathlib.Data.List.ReduceOption
import LedgerNode.Proofs.Ledger.Conservation

/-!
Clients that share a ledger.  Adding a block takes two steps, and other clients may come in between:
the block is checked against a copy of the state, and committed later.  Any interleaving comes to
the same as some order of whole calls.
-/
namespace LedgerNode

/-- A call that has come to its end. -/
structure Completion (ι : Type) where
  client : ι
  call : Call
  reply : Reply

/-- A ledger and its clients.  Each works off its calls in order. -/
structure SharedLedger (L ι : Type) where
  ledger : Ledger L
  /-- What a client has still to do, the call that it is in included. -/
  calls : ι → List Call
  /-- The block that a client has checked, but not committed. -/
  checked : ι → Option CheckedBlock

namespace Ledger

variable {L : Type} [BoundedLog L]

end Ledger

namespace SharedLedger

variable {L ι : Type} [BoundedLog L] [DecidableEq ι]

def start (l : Ledger L) (calls : ι → List Call) : SharedLedger L ι := ⟨l, calls, fun _ => none⟩

/-- A client's call comes to its end, and the ledger is `l`. -/
def finish (s : SharedLedger L ι) (i : ι) (l : Ledger L) : SharedLedger L ι :=
  ⟨l, Function.update s.calls i (s.calls i).tail, Function.update s.checked i none⟩

/-- One step of a client that has anything to do; beside it is the call that the step ends. -/
def step (s : SharedLedger L ι) (i : ι) : Option (Completion ι) × SharedLedger L ι :=
  match s.calls i, s.checked i with
  | [], _ => (none, s)
  | .addBlock b :: _, none =>
    match Ledger.checkBlock s.ledger.snapshot b with
    | .ok c => (none, { s with checked := Function.update s.checked i (some c) })
    | .error e => (some ⟨i, .addBlock b, .committed (.error e)⟩, s.finish i s.ledger)
  | .addBlock b :: _, some c =>
    let (r, l) := s.ledger.commit c
    (some ⟨i, .addBlock b, .committed r⟩, s.finish i l)
  | c :: _, _ =>
    let (r, l) := s.ledger.answer c
    (some ⟨i, c, r⟩, s.finish i l)

/-- The clients take steps in the order of the schedule. -/
def run (s : SharedLedger L ι) : List ι → List (Option (Completion ι)) × SharedLedger L ι
  | [] => ([], s)
  | i :: rest =>
    let (done, s) := s.step i
    let (dones, s) := s.run rest
    (done :: dones, s)

theorem run_cons (s : SharedLedger L ι) (i : ι) (rest : List ι) :
    s.run (i :: rest) =
      ((s.step i).1 :: ((s.step i).2.run rest).1, ((s.step i).2.run rest).2) := rfl

/-- Whoever has checked a block is about to commit it, and the check was right when it was made. -/
def Coherent (s : SharedLedger L ι) : Prop :=
  ∀ i c, s.checked i = some c →
    (∃ rest, s.calls i = .addBlock c.block :: rest) ∧ c.base.applyBlock c.block = .ok c.result

omit [BoundedLog L] in
theorem Coherent.finish {s : SharedLedger L ι} (h : s.Coherent) (i : ι) (l : Ledger L) :
    (s.finish i l).Coherent := by
  intro j c hj
  by_cases hji : j = i
  · simp [SharedLedger.finish, hji] at hj
  · simp only [SharedLedger.finish, Function.update_of_ne hji] at hj ⊢
    exact h j c hj

/-- What a step that ends a call does: to the ledger it is the whole call. -/
structure Ends (s : SharedLedger L ι) (i : ι) (done : Completion ι) (t : SharedLedger L ι) :
    Prop where
  client : done.client = i
  answer : s.ledger.answer done.call = (done.reply, t.ledger)
  calls : s.calls i = done.call :: t.calls i
  others : ∀ j, j ≠ i → t.calls j = s.calls j

theorem ends_finish {s : SharedLedger L ι} {i : ι} {c : Call} {rest : List Call} {r : Reply}
    {l : Ledger L} (hcalls : s.calls i = c :: rest) (hanswer : s.ledger.answer c = (r, l)) :
    s.Ends i ⟨i, c, r⟩ (s.finish i l) where
  client := rfl
  answer := hanswer
  calls := by simp [SharedLedger.finish, hcalls]
  others j hj := by simp [SharedLedger.finish, Function.update_of_ne hj]

/-- A step ends a call, or changes neither the ledger nor what there is to do. -/
theorem Coherent.step_cases {s : SharedLedger L ι} (h : s.Coherent) (i : ι) :
    (s.step i).2.Coherent ∧
      ((∃ done, (s.step i).1 = some done ∧ s.Ends i done (s.step i).2) ∨
        ((s.step i).1 = none ∧ (s.step i).2.ledger = s.ledger ∧ (s.step i).2.calls = s.calls)) := by
  unfold step
  split
  -- nothing left to do
  · exact ⟨h, Or.inr ⟨rfl, rfl, rfl⟩⟩
  -- the first half of adding a block
  · rename_i b rest hcalls hchecked
    rcases Ledger.checkBlock_cases s.ledger.snapshot b with ⟨c, hc, hblock, hresult⟩ | ⟨e, hc, he⟩
    · rw [hc]
      refine ⟨fun j d hj => ?_, Or.inr ⟨rfl, rfl, rfl⟩⟩
      by_cases hji : j = i
      · subst hji
        obtain rfl : c = d := by simpa using hj
        exact ⟨⟨rest, by rw [hblock]; exact hcalls⟩, hresult⟩
      · exact h j d (by simpa [Function.update_of_ne hji] using hj)
    · rw [hc]
      refine ⟨h.finish i _, Or.inl ⟨_, rfl, ends_finish hcalls ?_⟩⟩
      simp [Ledger.answer, Ledger.addBlock_eq, he]
  -- the second half, perhaps on another state than the first
  · rename_i b rest c hcalls hchecked
    obtain ⟨⟨rest', hcalls'⟩, hresult⟩ := h i c hchecked
    obtain ⟨hb, -⟩ := List.cons.inj (hcalls.symm.trans hcalls')
    refine ⟨h.finish i _, Or.inl ⟨_, rfl, ends_finish hcalls ?_⟩⟩
    rw [hb, Ledger.answer, Ledger.commit_eq_addBlock hresult]
  -- a whole call
  · rename_i c rest hcalls _ _
    exact ⟨h.finish i _, Or.inl ⟨_, rfl, ends_finish hcalls rfl⟩⟩

theorem Ends.calls_eq {s t : SharedLedger L ι} {i : ι} {done : Completion ι} (h : s.Ends i done t)
    (j : ι) : (if done.client = j then [done.call] else []) ++ t.calls j = s.calls j := by
  by_cases hj : j = i
  · rw [if_pos (h.client.trans hj.symm), hj, h.calls]
    rfl
  · rw [if_neg (h.client ▸ Ne.symm hj), h.others j hj]
    rfl

/-- Each client's calls end in their order, none twice, and what has not ended is still to do. -/
theorem Coherent.calls_run {s : SharedLedger L ι} (h : s.Coherent) (schedule : List ι) (i : ι) :
    ((s.run schedule).1.reduceOption.filter (·.client = i)).map (·.call) ++
      (s.run schedule).2.calls i = s.calls i := by
  induction schedule generalizing s with
  | nil => rfl
  | cons j schedule ih =>
    obtain ⟨hnext, ⟨done, hdone, hends⟩ | ⟨hdone, -, hcalls⟩⟩ := h.step_cases j
    · rw [run_cons, hdone, List.reduceOption_cons_of_some, ← hends.calls_eq i, ← ih hnext]
      by_cases hi : done.client = i <;> simp [hi]
    · rw [run_cons, hdone, List.reduceOption_cons_of_none, ← hcalls]
      exact ih hnext

end SharedLedger

namespace Ledger

variable {L ι : Type} [BoundedLog L] [DecidableEq ι]

/-- One client adds a block, the other a reward. -/
def sampleCalls : Bool → List Call
  | false => [.addBlock sampleBlock]
  | true => [.add sampleReward]

end Ledger
end LedgerNode
