import Mathlib.Data.Nat.Digits.Defs
import LedgerNode.ProofOfWork

/-!
The search for a nonce, turn by turn.  The worker has one block at hand, replaces its nonce again and
again, and looks at its signal before each try; the signal may go up between any two of its turns.  The
search ends at the first attempt that sees the signal or meets the target, and what it has at hand is
the candidate with a nonce at every moment.
-/
namespace LedgerNode

namespace Digest

/-- The digest as a number, its first byte the most significant. -/
def toNat (d : Digest) : Nat := Nat.ofDigits 256 (d.bytes.reverse.map UInt8.toNat)

theorem ofDigits_lt (b : Bytes) : Nat.ofDigits 256 (b.map UInt8.toNat) < 256 ^ b.length := by
  have hdigits : ∀ n ∈ b.map UInt8.toNat, n < 256 := by
    simp only [List.mem_map, forall_exists_index, and_imp, forall_apply_eq_imp_iff₂]
    exact fun x _ => x.toNat_lt
  simpa using Nat.ofDigits_lt_base_pow_length (by decide) hdigits

theorem ofDigits_eq_zero_iff (b : Bytes) :
    Nat.ofDigits 256 (b.map UInt8.toNat) = 0 ↔ ∀ x ∈ b, x = 0 := by
  induction b with
  | nil => simp
  | cons x b ih =>
    have hx : x.toNat = 0 ↔ x = 0 := UInt8.toNat_inj (b := 0)
    rw [List.map_cons, Nat.ofDigits_cons, List.forall_mem_cons, ← ih, ← hx]
    omega

end Digest

namespace ProofOfWork

section target

/-- A digest meets the target if it is a small enough number. -/
theorem meets_iff_toNat_lt (pow : ProofOfWork) (d : Digest) :
    pow.meets d = true ↔ d.toNat < 256 ^ (32 - pow.complexity) := by
  have hlength : (d.bytes.drop pow.complexity).reverse.length = 32 - pow.complexity := by
    rw [List.length_reverse, List.length_drop, d.length_eq]
  have hsplit : d.toNat =
      Nat.ofDigits 256 ((d.bytes.drop pow.complexity).reverse.map UInt8.toNat) +
        256 ^ (32 - pow.complexity) *
          Nat.ofDigits 256 ((d.bytes.take pow.complexity).reverse.map UInt8.toNat) := by
    rw [Digest.toNat, ← List.take_append_drop pow.complexity d.bytes, List.reverse_append,
      List.map_append, Nat.ofDigits_append, List.length_map, List.take_append_drop, hlength]
  have hlow := Digest.ofDigits_lt (d.bytes.drop pow.complexity).reverse
  rw [hlength] at hlow
  have hhigh : pow.meets d = true ↔
      Nat.ofDigits 256 ((d.bytes.take pow.complexity).reverse.map UInt8.toNat) = 0 := by
    rw [Digest.ofDigits_eq_zero_iff, meets]
    simp
  rw [hhigh, hsplit]
  constructor
  · intro hzero
    rw [hzero, Nat.mul_zero, Nat.add_zero]
    exact hlow
  · intro hlt
    by_contra hne
    have := Nat.le_mul_of_pos_right (256 ^ (32 - pow.complexity)) (Nat.pos_of_ne_zero hne)
    omega

/-- What is hard enough is hard enough for less. -/
theorem meets_of_le {pow easier : ProofOfWork} (h : easier.complexity ≤ pow.complexity) {d : Digest}
    (hd : pow.meets d = true) : easier.meets d = true := by
  rw [meets_iff_toNat_lt] at *
  exact Nat.lt_of_lt_of_le hd (Nat.pow_le_pow_right (by decide) (by omega))

end target

section search

variable (pow : ProofOfWork) (raised : Nat → Bool) (nonces : Nat → UInt32) (c : Candidate)

/-- What the attempt of a number ends the search with, if it does; the signal comes first. -/
def attempt? (i : Nat) : Option (Except MiningError Block) :=
  if raised i then some (.error .cancelled)
  else if pow.meets (c.withNonce (nonces i)).digest then some (.ok (c.withNonce (nonces i)))
  else none

/-- The search ends at an attempt, and has not ended before. -/
structure EndsAt (i : Nat) (outcome : Except MiningError Block) : Prop where
  ends : pow.attempt? raised nonces c i = some outcome
  first : ∀ j < i, pow.attempt? raised nonces c j = none

/-- Of the first attempts none ends the search, or there is one where it ends. -/
theorem unended_or_endsAt (n : Nat) :
    (∀ j < n, pow.attempt? raised nonces c j = none) ∨
      ∃ i < n, ∃ outcome, EndsAt pow raised nonces c i outcome := by
  induction n with
  | zero => exact .inl nofun
  | succ n ih =>
    rcases ih with hnone | ⟨i, hi, outcome, hends⟩
    · cases hn : pow.attempt? raised nonces c n with
      | none => exact .inl fun j hj => (Nat.lt_succ_iff_lt_or_eq.mp hj).elim (hnone j) (· ▸ hn)
      | some outcome => exact .inr ⟨n, Nat.lt_succ_self n, outcome, hn, hnone⟩
    · exact .inr ⟨i, Nat.lt_succ_of_lt hi, outcome, hends⟩

variable {pow raised nonces c}

theorem attempt?_eq_none_iff {i : Nat} : pow.attempt? raised nonces c i = none ↔
    raised i = false ∧ pow.meets (c.withNonce (nonces i)).digest = false := by
  rw [attempt?]
  cases raised i <;> cases pow.meets (c.withNonce (nonces i)).digest <;> simp

theorem attempt?_eq_some_iff {i : Nat} {outcome : Except MiningError Block} :
    pow.attempt? raised nonces c i = some outcome ↔
      raised i = true ∧ outcome = .error .cancelled ∨
      raised i = false ∧ pow.meets (c.withNonce (nonces i)).digest = true ∧
        outcome = .ok (c.withNonce (nonces i)) := by
  rw [attempt?]
  cases raised i <;> cases pow.meets (c.withNonce (nonces i)).digest <;> simp [eq_comm]

theorem endsAt_iff {i : Nat} {outcome : Except MiningError Block} :
    EndsAt pow raised nonces c i outcome ↔
      (∀ j < i, raised j = false ∧ pow.meets (c.withNonce (nonces j)).digest = false) ∧
      (raised i = true ∧ outcome = .error .cancelled ∨
        raised i = false ∧ pow.meets (c.withNonce (nonces i)).digest = true ∧
          outcome = .ok (c.withNonce (nonces i))) := by
  rw [← attempt?_eq_some_iff]
  simp only [← attempt?_eq_none_iff]
  exact ⟨fun h => ⟨h.first, h.ends⟩, fun h => ⟨h.2, h.1⟩⟩

theorem search_succ (i limit : Nat) :
    (pow.search raised nonces c.frame i (limit + 1)).map (·.map c.withNonce) =
      (pow.attempt? raised nonces c i).or
        ((pow.search raised nonces c.frame (i + 1) limit).map (·.map c.withNonce)) := by
  rw [search, attempt?, c.digest_frame]
  cases raised i <;> cases pow.meets (c.withNonce (nonces i)).digest <;> rfl

/-- A search from an attempt on ends at the first attempt from there that ends it. -/
theorem search_eq_some_iff {i limit : Nat} {outcome : Except MiningError Block} :
    (pow.search raised nonces c.frame i limit).map (·.map c.withNonce) = some outcome ↔
      ∃ k, i ≤ k ∧ k < i + limit ∧ pow.attempt? raised nonces c k = some outcome ∧
        ∀ j, i ≤ j → j < k → pow.attempt? raised nonces c j = none := by
  induction limit generalizing i with
  | zero => exact ⟨nofun, fun ⟨k, hik, hki, _⟩ => absurd hki (Nat.not_lt.mpr hik)⟩
  | succ limit ih =>
    rw [search_succ]
    cases hi : pow.attempt? raised nonces c i with
    | some o =>
      rw [Option.some_or]
      constructor
      · rintro ⟨⟩
        exact ⟨i, Nat.le_refl i, by omega, hi, fun j hij hji => by omega⟩
      · rintro ⟨k, hik, -, hends, hfirst⟩
        rcases Nat.eq_or_lt_of_le hik with rfl | hlt
        · exact hi.symm.trans hends
        · exact absurd (hi.symm.trans (hfirst i (Nat.le_refl i) hlt)) nofun
    | none =>
      rw [Option.none_or, ih]
      constructor
      · rintro ⟨k, hik, hk, hends, hfirst⟩
        refine ⟨k, by omega, by omega, hends, fun j hij hjk => ?_⟩
        rcases Nat.eq_or_lt_of_le hij with rfl | hlt
        · exact hi
        · exact hfirst j hlt hjk
      · rintro ⟨k, hik, hk, hends, hfirst⟩
        have hne : k ≠ i := by
          rintro rfl
          exact absurd (hi.symm.trans hends) nofun
        exact ⟨k, by omega, by omega, hends, fun j hij => hfirst j (by omega)⟩

theorem mine_of_empty (h : c.transactions = []) (limit : Nat) :
    pow.mine raised nonces c limit = some (.error .emptyBlock) := by
  simp [mine, h]

theorem mine_eq_some_iff (h : c.transactions ≠ []) {limit : Nat}
    {outcome : Except MiningError Block} :
    pow.mine raised nonces c limit = some outcome ↔
      ∃ i < limit, EndsAt pow raised nonces c i outcome := by
  rw [mine, if_neg (by simpa using h), search_eq_some_iff]
  constructor
  · rintro ⟨i, -, hi, hends, hfirst⟩
    exact ⟨i, by omega, hends, fun j => hfirst j (Nat.zero_le j)⟩
  · rintro ⟨i, hi, hends, hfirst⟩
    exact ⟨i, Nat.zero_le i, by omega, hends, fun j _ => hfirst j⟩

end search

section turns

/-- What a worker does in its next turn, or how it is done. -/
inductive Stage where
  | looking
  | trying
  | done (outcome : Except MiningError Block)

/-- A worker with the block it has at hand, and how many digests it has computed. -/
structure Searcher where
  block : Block
  tried : Nat
  stage : Stage

/-- The block with another nonce. -/
def reseal (b : Block) (nonce : UInt32) : Block := { b with header := { b.header with nonce } }

@[simp] theorem reseal_withNonce (c : Candidate) (last nonce : UInt32) :
    reseal (c.withNonce last) nonce = c.withNonce nonce := rfl

namespace Searcher

variable (pow : ProofOfWork) (nonces : Nat → UInt32) (c : Candidate)

def begin : Searcher :=
  ⟨c.withNonce 0, 0, if c.transactions.isEmpty then .done (.error .emptyBlock) else .looking⟩

/-- A turn of the worker: it looks at the signal, or puts the next nonce into its block. -/
def turn (isUp : Bool) (w : Searcher) : Searcher :=
  match w.stage with
  | .looking => { w with stage := if isUp then .done (.error .cancelled) else .trying }
  | .trying =>
    let block := reseal w.block (nonces w.tried)
    ⟨block, w.tried + 1, if pow.meets block.digest then .done (.ok block) else .looking⟩
  | .done _ => w

/-- The worker after so many turns, if the signal is up or not at each. -/
def after (isUp : Nat → Bool) : Nat → Searcher
  | 0 => begin c
  | t + 1 => turn pow nonces (isUp t) (after isUp t)

/-- The nonce in the block at hand after so many tries. -/
def lastNonce : Nat → UInt32
  | 0 => 0
  | n + 1 => nonces n

variable {pow nonces c} {isUp : Nat → Bool}

theorem turn_looking (up : Bool) (b : Block) (n : Nat) : turn pow nonces up ⟨b, n, .looking⟩ =
    ⟨b, n, if up then .done (.error .cancelled) else .trying⟩ := rfl

theorem turn_trying (up : Bool) (b : Block) (n : Nat) : turn pow nonces up ⟨b, n, .trying⟩ =
    ⟨reseal b (nonces n), n + 1, if pow.meets (reseal b (nonces n)).digest then
      .done (.ok (reseal b (nonces n))) else .looking⟩ := rfl

theorem turn_done (up : Bool) (b : Block) (n : Nat) (outcome : Except MiningError Block) :
    turn pow nonces up ⟨b, n, .done outcome⟩ = ⟨b, n, .done outcome⟩ := rfl

/-- The block at hand is the candidate with the nonce that was tried last. -/
theorem block_after (t : Nat) : (after pow nonces c isUp t).block =
    c.withNonce (lastNonce nonces (after pow nonces c isUp t).tried) := by
  induction t with
  | zero => rfl
  | succ t ih =>
    rw [after]
    generalize after pow nonces c isUp t = w at ih
    obtain ⟨block, n, stage⟩ := w
    obtain rfl : block = c.withNonce (lastNonce nonces n) := ih
    cases stage with
    | looking => rfl
    | trying => rfl
    | done outcome => rfl

theorem after_of_done {t u : Nat} {outcome : Except MiningError Block} (htu : t ≤ u)
    (h : (after pow nonces c isUp t).stage = .done outcome) :
    after pow nonces c isUp u = after pow nonces c isUp t := by
  induction htu with
  | refl => rfl
  | @step u _ ih => rw [after, ih, turn, h]

/-- Two turns are an attempt. -/
theorem after_attempt {i : Nat} (hstage : (after pow nonces c isUp (2 * i)).stage = .looking)
    (htried : (after pow nonces c isUp (2 * i)).tried = i) :
    (pow.attempt? (fun i => isUp (2 * i)) nonces c i = none →
      (after pow nonces c isUp (2 * (i + 1))).stage = .looking ∧
        (after pow nonces c isUp (2 * (i + 1))).tried = i + 1) ∧
    ∀ outcome, pow.attempt? (fun i => isUp (2 * i)) nonces c i = some outcome →
      (after pow nonces c isUp (2 * (i + 1))).stage = .done outcome := by
  have hblock : (after pow nonces c isUp (2 * i)).block = c.withNonce (lastNonce nonces _) :=
    block_after (2 * i)
  rw [show 2 * (i + 1) = 2 * i + 1 + 1 from rfl, after, after]
  generalize after pow nonces c isUp (2 * i) = w at hstage htried hblock
  obtain ⟨block, n, stage⟩ := w
  obtain rfl : stage = .looking := hstage
  obtain rfl : n = i := htried
  obtain rfl : block = c.withNonce (lastNonce nonces n) := hblock
  rw [turn_looking, attempt?_eq_none_iff]
  refine ⟨fun ⟨hdown, hmisses⟩ => ?_, fun outcome h => ?_⟩
  · rw [hdown]
    simp only [Bool.false_eq_true, if_false, turn_trying, reseal_withNonce, hmisses, and_self]
  · rcases attempt?_eq_some_iff.mp h with ⟨hup, rfl⟩ | ⟨hdown, hmeets, rfl⟩
    · rw [hup, if_pos rfl, turn_done]
    · rw [hdown]
      simp only [Bool.false_eq_true, if_false, turn_trying, reseal_withNonce, hmeets, if_true]

/-- As long as no attempt has ended it, the search goes on, one digest for each. -/
theorem after_unended (h : c.transactions ≠ []) {n : Nat}
    (hnone : ∀ j < n, pow.attempt? (fun i => isUp (2 * i)) nonces c j = none) :
    (after pow nonces c isUp (2 * n)).stage = .looking ∧
      (after pow nonces c isUp (2 * n)).tried = n := by
  induction n with
  | zero => exact ⟨if_neg (by simpa using h), rfl⟩
  | succ n ih =>
    obtain ⟨hstage, htried⟩ := ih fun j hj => hnone j (Nat.lt_succ_of_lt hj)
    exact (after_attempt hstage htried).1 (hnone n (Nat.lt_succ_self n))

theorem after_endsAt (h : c.transactions ≠ []) {i n : Nat} {outcome : Except MiningError Block}
    (hi : i < n) (hends : EndsAt pow (fun i => isUp (2 * i)) nonces c i outcome) :
    (after pow nonces c isUp (2 * n)).stage = .done outcome := by
  obtain ⟨hstage, htried⟩ := after_unended h hends.first
  have hdone := (after_attempt hstage htried).2 outcome hends.ends
  rw [after_of_done (by omega) hdone, hdone]

/-- The turns of the worker come to what the search is defined as. -/
theorem done_iff_mine (n : Nat) (outcome : Except MiningError Block) :
    (after pow nonces c isUp (2 * n)).stage = .done outcome ↔
      pow.mine (fun i => isUp (2 * i)) nonces c n = some outcome := by
  by_cases h : c.transactions = []
  · have hbegin : (after pow nonces c isUp 0).stage = .done (.error .emptyBlock) :=
      if_pos (by simp [h])
    rw [after_of_done (Nat.zero_le _) hbegin, hbegin, mine_of_empty h]
    simp
  · rw [mine_eq_some_iff h]
    constructor
    · intro hdone
      -- If no attempt had ended the search, the worker would be looking still.
      rcases unended_or_endsAt pow (fun i => isUp (2 * i)) nonces c n with
        hnone | ⟨i, hi, o, hends⟩
      · rw [(after_unended h hnone).1] at hdone
        cases hdone
      · rw [after_endsAt h hi hends] at hdone
        cases hdone
        exact ⟨i, hi, hends⟩
    · rintro ⟨i, hi, hends⟩
      exact after_endsAt h hi hends

/-- How many digests the worker may still compute once the signal is up. -/
def left (w : Searcher) : Nat :=
  match w.stage with
  | .trying => 1
  | _ => 0

theorem left_le (w : Searcher) : w.left ≤ 1 := by
  rw [left]
  split <;> omega

/-- With the signal up, a digest that is computed is one that was left. -/
theorem tried_turn_up (w : Searcher) :
    (turn pow nonces true w).tried + (turn pow nonces true w).left = w.tried + w.left := by
  obtain ⟨block, n, stage⟩ := w
  cases stage with
  | looking => rfl
  | done outcome => rfl
  | trying =>
    rw [turn_trying]
    cases pow.meets (reseal block (nonces n)).digest <;> rfl

theorem tried_after_up {m t : Nat} (hmt : m ≤ t) (hup : ∀ u, m ≤ u → isUp u = true) :
    (after pow nonces c isUp t).tried ≤ (after pow nonces c isUp m).tried + 1 := by
  have hsum : (after pow nonces c isUp t).tried + (after pow nonces c isUp t).left =
      (after pow nonces c isUp m).tried + (after pow nonces c isUp m).left := by
    induction hmt with
    | refl => rfl
    | @step t hmt ih => rw [after, hup t hmt, tried_turn_up, ih]
  have := (after pow nonces c isUp m).left_le
  omega

end Searcher

end turns

/-- Whether the signal is up at a turn, if it goes up before the turn of that number, or never. -/
def isUpFrom (moment : Option Nat) (turn : Nat) : Bool := moment.any (· ≤ turn)

/-- The search of a candidate without transactions is refused, and only that.  Any other one ends at the
first attempt that sees the signal up, or else meets the target, and goes on as long as there is none;
so once the signal is up it ends.  What it finds is the candidate with the nonce of that attempt, and
meets the target.  A worker that replaces the nonce in its one block again and again, while the signal
goes up between any two of its turns, comes to the same; at all times its block is the candidate with
the nonce tried last, and after the signal it computes one more digest at most.  A digest meets the
target exactly if it is, as a number, below that power of 256; so what meets a target meets every
easier one. -/
theorem mine_ends_first (pow : ProofOfWork) (nonces : Nat → UInt32) (c : Candidate)
    (moment : Option Nat) :
    let raised := fun i => isUpFrom moment (2 * i)
    let worker := Searcher.after pow nonces c (isUpFrom moment)
    (∀ limit, pow.mine raised nonces c limit = some (.error .emptyBlock) ↔ c.transactions = []) ∧
    (c.transactions ≠ [] → ∀ limit outcome, pow.mine raised nonces c limit = some outcome ↔
      ∃ i < limit,
        (∀ j < i, raised j = false ∧ pow.meets (c.withNonce (nonces j)).digest = false) ∧
        (raised i = true ∧ outcome = .error .cancelled ∨
          raised i = false ∧ pow.meets (c.withNonce (nonces i)).digest = true ∧
            outcome = .ok (c.withNonce (nonces i)))) ∧
    (∀ limit b, pow.mine raised nonces c limit = some (.ok b) →
      b.header.parent = c.parent ∧ b.header.height = c.height ∧ b.header.time = c.time ∧
        b.transactions = c.transactions ∧ pow.meets b.digest = true) ∧
    (∀ i, raised i = true → ∃ outcome, pow.mine raised nonces c (i + 1) = some outcome) ∧
    (∀ n outcome, (worker (2 * n)).stage = .done outcome ↔
      pow.mine raised nonces c n = some outcome) ∧
    (∀ t, (worker t).block = c.withNonce (Searcher.lastNonce nonces (worker t).tried)) ∧
    (∀ m t, moment = some m → m ≤ t → (worker t).tried ≤ (worker m).tried + 1) ∧
    (∀ d, pow.meets d = true ↔ d.toNat < 256 ^ (32 - pow.complexity)) ∧
    ∀ (easier : ProofOfWork) (d : Digest), easier.complexity ≤ pow.complexity →
      pow.meets d = true → easier.meets d = true := by
  intro raised worker
  refine ⟨fun limit => ⟨fun hmine => ?_, fun h => mine_of_empty h limit⟩, fun h limit outcome => ?_,
    fun limit b hmine => ?_, fun i hraised => ?_, Searcher.done_iff_mine, Searcher.block_after, ?_,
    meets_iff_toNat_lt pow, fun easier d h => meets_of_le h⟩
  · by_contra h
    obtain ⟨i, -, hends⟩ := (mine_eq_some_iff h).mp hmine
    rcases attempt?_eq_some_iff.mp hends.ends with ⟨-, ho⟩ | ⟨-, -, ho⟩ <;> cases ho
  · rw [mine_eq_some_iff h]
    simp only [endsAt_iff]
  · obtain ⟨hmeets, nonce, rfl⟩ := meets_of_mine hmine
    exact ⟨rfl, rfl, rfl, rfl, hmeets⟩
  · by_cases h : c.transactions = []
    · exact ⟨_, mine_of_empty h _⟩
    · rcases unended_or_endsAt pow raised nonces c (i + 1) with hnone | ⟨j, hj, outcome, hends⟩
      · have := (attempt?_eq_none_iff.mp (hnone i (Nat.lt_succ_self i))).1
        rw [hraised] at this
        cases this
      · exact ⟨outcome, (mine_eq_some_iff h).mpr ⟨j, hj, hends⟩⟩
  · rintro m t rfl hmt
    exact Searcher.tried_after_up hmt fun u hu => by simpa [isUpFrom] using hu

def sampleMiner : Account := ⟨"0000000000000000000000000000000000000004", by decide⟩

def sampleCandidate : Candidate :=
  ⟨.zero, 1, 0, sampleMiner, [⟨sampleMiner, sampleMiner, 5, .selfReward, 0⟩]⟩

/-- The signal goes up after the worker has looked at it: the block of that attempt is found all the
same, and its digest is the one more that is computed. -/
theorem mine_ends_first_lateSignal :
    let pow : ProofOfWork := ⟨0, by decide⟩
    let nonces := fun i => UInt32.ofNat i
    let worker := Searcher.after pow nonces sampleCandidate (isUpFrom (some 1))
    pow.mine (fun i => isUpFrom (some 1) (2 * i)) nonces sampleCandidate 1 =
        some (.ok (sampleCandidate.withNonce 0)) ∧
      (worker 2).stage = .done (.ok (sampleCandidate.withNonce 0)) ∧
      (worker 1).tried = 0 ∧ (worker 2).tried = 1 ∧ ∀ t, 1 ≤ t → (worker t).tried ≤ 1 := by
  intro pow nonces worker
  have hmeets : pow.meets (sampleCandidate.withNonce (nonces 0)).digest = true := rfl
  obtain ⟨-, hends, -, -, hworker, -, htried, -⟩ :=
    mine_ends_first pow nonces sampleCandidate (some 1)
  have hmine := (hends (by decide) 1 _).mpr
    ⟨0, Nat.one_pos, nofun, .inr ⟨rfl, hmeets, rfl⟩⟩
  exact ⟨hmine, (hworker 1 _).mpr hmine, rfl, rfl, fun t ht => htried 1 t rfl ht⟩

end ProofOfWork
end LedgerNode
