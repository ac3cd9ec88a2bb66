import LedgerNode.Json.Token
import LedgerNode.Proofs.Text.Encoding

/-!
Whole numbers in a JSON text.  The digits of a number below 2^64 are read back as that number, where
nothing follows that could be a part of it.
-/
namespace LedgerNode.Json

open Text

/-- The byte of a digit. -/
def digitByte (d : Nat) : UInt8 := UInt8.ofNat (0x30 + d)

theorem utf8_digitChar {d : Nat} (h : d < 10) :
    utf8 (String.ofList [d.digitChar]) = [digitByte d] := by
  have key : ∀ d < 10, d.digitChar.toNat = 0x30 + d := by decide
  have hc := key d h
  rw [utf8_ofList, List.flatMap_cons, utf8EncodeChar_of_ascii (by omega), hc]
  rfl

theorem renderNat_of_lt {n : Nat} (h : n < 10) : renderNat n = [digitByte n] := by
  rw [renderNat, Nat.toDigits_of_lt_base h, utf8_digitChar h]

theorem renderNat_append {m d : Nat} (hm : 0 < m) (hd : d < 10) :
    renderNat (10 * m + d) = renderNat m ++ [digitByte d] := by
  rw [renderNat, ← Nat.toDigits_append_toDigits (by decide) hm hd, String.ofList_append,
    utf8_append, Nat.toDigits_of_lt_base hd, utf8_digitChar hd]
  rfl

theorem isDigit_digitByte {d : Nat} (h : d < 10) : isDigit (digitByte d) = true := by
  have key : ∀ d < 10, isDigit (digitByte d) = true := by decide
  exact key d h

theorem exists_digitByte {b : UInt8} (h : isDigit b = true) : ∃ d < 10, b = digitByte d := by
  simp only [isDigit, Bool.and_eq_true, decide_eq_true_eq, UInt8.le_iff_toNat_le,
    UInt8.reduceToNat] at h
  refine ⟨b.toNat - 0x30, by omega, ?_⟩
  rw [digitByte, Nat.add_sub_cancel' h.1, UInt8.ofNat_toNat]

theorem digitByte_sub {d : Nat} (h : d < 10) : (digitByte d - 0x30).toNat = d := by
  have key : ∀ d < 10, (digitByte d - 0x30).toNat = d := by decide
  exact key d h

/-- What is known of the digits of a number: they are digits, they write it, and the first of
several is not zero. -/
theorem renderNat_digits (n : Nat) :
    (∀ b ∈ renderNat n, isDigit b = true) ∧ digitsValue (renderNat n) = n ∧
      (∃ b rest, renderNat n = b :: rest ∧ (n ≠ 0 → b ≠ 0x30) ∧ (n = 0 → rest = [])) := by
  induction n using Nat.base_induction 10 (by decide) with
  | single m hm =>
    have key : ∀ d < 10, d ≠ 0 → digitByte d ≠ 0x30 := by decide
    rw [renderNat_of_lt hm]
    refine ⟨by simp [isDigit_digitByte hm], ?_, _, _, rfl, key m hm, fun _ => rfl⟩
    simp [digitsValue, digitByte_sub hm]
  | digit m d hd hm ih =>
    obtain ⟨hall, hvalue, b, rest, hcons, hfirst, -⟩ := ih
    rw [renderNat_append hm hd]
    refine ⟨?_, ?_, b, rest ++ [digitByte d], by simp [hcons], fun _ => hfirst (by omega), by omega⟩
    · intro x hx
      rcases List.mem_append.mp hx with hx | hx
      · exact hall x hx
      · rw [List.mem_singleton.mp hx]
        exact isDigit_digitByte hd
    · rw [digitsValue] at hvalue ⊢
      rw [List.foldl_append, hvalue]
      simp [digitByte_sub hd, Nat.mul_comm]

theorem le_foldl_digits (ds : Bytes) (n : Nat) :
    n ≤ ds.foldl (fun n d => n * 10 + (d - 0x30).toNat) n := by
  induction ds generalizing n with
  | nil => exact Nat.le_refl n
  | cons d ds ih =>
    have h := ih (n * 10 + (d - 0x30).toNat)
    simp only [List.foldl_cons]
    omega

theorem leadingValue_of_lt (ds : Bytes) (n : Nat)
    (h : ds.foldl (fun n d => n * 10 + (d - 0x30).toNat) n < UInt64.size) :
    leadingValue n ds = (ds.foldl (fun n d => n * 10 + (d - 0x30).toNat) n, 0) := by
  induction ds generalizing n with
  | nil => rfl
  | cons d ds ih =>
    rw [List.foldl_cons] at h ⊢
    have hd := Nat.lt_of_le_of_lt (le_foldl_digits ds _) h
    rw [leadingValue]
    simp only [hd, if_true]
    exact ih _ h

theorem roundToDouble_le (n : Nat) : roundToDouble n ≤ 2 * n := by
  by_cases hn : n = 0
  · subst hn
    decide
  · have hunit : Nat.pow 2 (n.log2 - 52) ≤ n :=
      Nat.le_trans (Nat.pow_le_pow_right (by decide) (Nat.sub_le _ _)) (Nat.log2_self_le hn)
    have hq := Nat.div_mul_le_self n (Nat.pow 2 (n.log2 - 52))
    simp only [roundToDouble]
    split
    · rw [Nat.succ_mul]
      omega
    · omega

theorem not_pow_le {k n : Nat} (hk : 67 ≤ k) (hn : n < 8 * UInt64.size) : ¬ Nat.pow 2 k ≤ n := by
  have hpow : Nat.pow 2 67 ≤ Nat.pow 2 k := Nat.pow_le_pow_right (by decide) hk
  have hsize : 8 * UInt64.size = Nat.pow 2 67 := by decide
  omega

/-- A number of 64 bits is far from too large. -/
theorem overflows_of_lt {ds : Bytes} (h : digitsValue ds < UInt64.size) :
    overflows ds 0 = false := by
  have hlead : leadingValue 0 ds = (digitsValue ds, 0) := leadingValue_of_lt ds 0 h
  have hone : roundToDouble (Nat.pow 10 0) ≤ 2 := roundToDouble_le 1
  have hsmall : roundToDouble (digitsValue ds) * roundToDouble (Nat.pow 10 0) ≤
      2 * digitsValue ds * 2 := Nat.mul_le_mul (roundToDouble_le _) hone
  have hround := roundToDouble_le (roundToDouble (digitsValue ds) * roundToDouble (Nat.pow 10 0))
  rw [overflows, hlead]
  dsimp only
  split
  · rfl
  · rw [if_neg (by decide)]
    apply decide_eq_false
    apply not_pow_le (by decide)
    exact Nat.lt_of_le_of_lt hround (by omega)

/-- What may stand behind a value: the end of the text, or what separates or closes. -/
def Follows (rest : Bytes) : Prop :=
  rest = [] ∨ ∃ b tail, rest = b :: tail ∧ (b = 0x2c ∨ b = 0x5d ∨ b = 0x7d)

theorem Follows.cases_head {rest : Bytes} (h : Follows rest) {b : UInt8} {tail : Bytes}
    (hb : rest = b :: tail) : isDigit b = false ∧ b ≠ 0x2e ∧ b ≠ 0x65 ∧ b ≠ 0x45 := by
  rcases h with rfl | ⟨c, tail', rfl, hc⟩
  · cases hb
  · obtain ⟨rfl, -⟩ := List.cons.inj hb
    rcases hc with rfl | rfl | rfl <;> decide

theorem Follows.takeWhile {rest : Bytes} (h : Follows rest) :
    rest.takeWhile isDigit = [] ∧ rest.dropWhile isDigit = rest := by
  cases hr : rest with
  | nil => simp
  | cons b tail => simp [(h.cases_head hr).1]

theorem scanNumber_renderNat {n : Nat} (hn : n < UInt64.size) {rest : Bytes} (hr : Follows rest) :
    scanNumber false (renderNat n ++ rest) = (.number (.natural n.toUInt64), rest) := by
  obtain ⟨hall, hvalue, b, ds, hcons, hfirst, hzero⟩ := renderNat_digits n
  have htake : (renderNat n ++ rest).takeWhile isDigit = renderNat n := by
    rw [List.takeWhile_append_of_pos hall, hr.takeWhile.1, List.append_nil]
  have hdrop : (renderNat n ++ rest).dropWhile isDigit = rest := by
    rw [List.dropWhile_append_of_pos hall, hr.takeWhile.2]
  have hlead : ¬ ((renderNat n).head? = some 0x30 ∧ (renderNat n).length ≠ 1) := by
    rw [hcons]
    rintro ⟨hb, hlen⟩
    by_cases h : n = 0
    · simp [hzero h] at hlen
    · exact hfirst h (by simpa using hb)
  have hdoc : numberDoc false (renderNat n) [] 0 true = .number (.natural n.toUInt64) := by
    have hover : overflows (renderNat n ++ []) (0 - (([] : Bytes).length : Int)) = false := by
      rw [List.append_nil]
      exact overflows_of_lt (by rwa [hvalue])
    rw [numberDoc, hover]
    simp [hvalue, hn]
  rw [scanNumber]
  simp only [htake, hdrop, hlead, hdoc, if_false]
  rw [if_neg (by simp [hcons])]
  cases hrest : rest with
  | nil => rfl
  | cons c tail =>
    obtain ⟨-, hpoint, hlower, hupper⟩ := hr.cases_head hrest
    simp [hpoint, hlower, hupper]

/-- A number is one token. -/
theorem scanToken_renderNat {n : Nat} (hn : n < UInt64.size) {rest : Bytes} (hr : Follows rest)
    {b : UInt8} {ds : Bytes} (h : renderNat n = b :: ds) :
    isSpace b = false ∧
      scanToken b (ds ++ rest) = (.word (.number (.natural n.toUInt64)), rest) := by
  have key : ∀ d < 10, isSpace (digitByte d) = false ∧ (mark? (digitByte d)).isNone ∧
      digitByte d ≠ 0x22 ∧ digitByte d ≠ 0x6e ∧ digitByte d ≠ 0x74 ∧ digitByte d ≠ 0x66 ∧
      digitByte d ≠ 0x2d := by decide
  have hb : isDigit b = true := (renderNat_digits n).1 b (by simp [h])
  have hnum := scanNumber_renderNat hn hr
  rw [h, List.cons_append] at hnum
  obtain ⟨d, hd, rfl⟩ := exists_digitByte hb
  obtain ⟨hspace, hmark, hquote, hnull, htrue, hfalse, hminus⟩ := key d hd
  refine ⟨hspace, ?_⟩
  rw [scanToken, Option.isNone_iff_eq_none.mp hmark]
  simp [scanWord, hquote, hnull, htrue, hfalse, hminus, hb, hnum]

theorem isText_renderNat (n : Nat) : IsText (renderNat n) := isText_utf8 _

theorem le_of_mem_renderNat (n : Nat) : ∀ b ∈ renderNat n, (0x20 : UInt8) ≤ b := by
  have key : ∀ d < 10, (0x20 : UInt8) ≤ digitByte d := by decide
  intro b hb
  obtain ⟨d, hd, rfl⟩ := exists_digitByte ((renderNat_digits n).1 b hb)
  exact key d hd

end LedgerNode.Json
