import LedgerNode.Proofs.Text.Hex

/-!
Which texts are digests.  A text is read if it is sixty-four hexadecimal digits of either case, and then
the digest is written as the same text in lower case.  Of any other text one fault is reported: an odd
number of bytes, or else the first byte that is no digit, or else the number of bytes that it writes.
-/
namespace LedgerNode

namespace Hex

open Text

/-- The digits that are read, of both cases. -/
def digits : List Char := "0123456789abcdefABCDEF".toList

/-- The byte stands for one of these digits. -/
def IsDigit (x : UInt8) : Prop := Char.ofNat x.toNat ∈ digits

instance : DecidablePred IsDigit := fun x => inferInstanceAs (Decidable (Char.ofNat x.toNat ∈ digits))

/-- What holds of all bytes can be checked one by one. -/
theorem forall_byte {P : UInt8 → Prop} (h : ∀ n < 256, P (.ofNat n)) (x : UInt8) : P x := by
  simpa using h x.toNat x.toNat_lt

theorem isDigit_iff (x : UInt8) : IsDigit x ↔ (digitValue? x).isSome = true :=
  forall_byte (P := fun x => IsDigit x ↔ (digitValue? x).isSome = true) (by decide +kernel) x

/-- A digit has a value below sixteen, whose digit is the same in lower case. -/
theorem IsDigit.exists_value {x : UInt8} (h : IsDigit x) :
    ∃ v < 16, digitValue? x = some v ∧
      Char.ofNat (digit v).toNat = (Char.ofNat x.toNat).toLower := by
  obtain ⟨v, hv⟩ := Option.isSome_iff_exists.mp ((isDigit_iff x).mp h)
  have hvalue := forall_byte
    (P := fun x => ∀ v, digitValue? x = some v →
      v < 16 ∧ Char.ofNat (digit v).toNat = (Char.ofNat x.toNat).toLower)
    (by decide +kernel) x v hv
  exact ⟨v, hvalue.1, hv, hvalue.2⟩

theorem IsDigit.ascii {x : UInt8} (h : IsDigit x) : x < 0x80 :=
  forall_byte (P := fun x => IsDigit x → x < 0x80) (by decide +kernel) x h

/-- A text has only digits as bytes if it has only digits as characters. -/
theorem isDigit_utf8_iff (s : String) :
    (∀ x ∈ utf8 s, IsDigit x) ↔ ∀ c ∈ s.toList, c ∈ digits := by
  constructor
  · intro h c hc
    rw [toList_of_ascii fun x hx => (h x hx).ascii] at hc
    obtain ⟨x, hx, rfl⟩ := List.mem_map.mp hc
    exact h x hx
  · intro h x hx
    rw [utf8_eq_flatMap] at hx
    obtain ⟨c, hc, hx⟩ := List.mem_flatMap.mp hx
    have hascii : digits.all (·.toNat < 0x80) = true := by decide
    have hlt : c.toNat < 0x80 := by simpa using List.all_eq_true.mp hascii c (h c hc)
    rw [utf8EncodeChar_of_ascii hlt, List.mem_singleton] at hx
    have hchar : Char.ofNat x.toNat = c := by
      have hn : x.toNat = c.toNat := by rw [hx]; simp; omega
      rw [hn, Char.ofNat_toNat]
    rw [IsDigit, hchar]
    exact h c hc

/-- Digits are characters of one byte. -/
theorem length_utf8_of_digits {s : String} (h : ∀ x ∈ utf8 s, IsDigit x) :
    (utf8 s).length = s.length := by
  rw [← String.length_toList, toList_of_ascii fun x hx => (h x hx).ascii, List.length_map]

/-- The byte stands at that position and is no digit, and there are only digits before. -/
structure FirstStray (t : Bytes) (x : UInt8) (position : Nat) : Prop where
  stands : t[position]? = some x
  not_digit : ¬ IsDigit x
  digits_before : ∀ y ∈ t.take position, IsDigit y

/-- It is the first byte of all, or there is a digit before it and it is the first in the rest. -/
theorem firstStray_cons_iff {x y : UInt8} {t : Bytes} {position : Nat} :
    FirstStray (y :: t) x position ↔ position = 0 ∧ y = x ∧ ¬ IsDigit y ∨
      ∃ p, position = p + 1 ∧ IsDigit y ∧ FirstStray t x p := by
  constructor
  · rintro ⟨hstands, hstray, hbefore⟩
    cases position with
    | zero =>
      obtain rfl := Option.some.inj hstands
      exact .inl ⟨rfl, rfl, hstray⟩
    | succ p =>
      rw [List.take_succ_cons, List.forall_mem_cons] at hbefore
      exact .inr ⟨p, rfl, hbefore.1, hstands, hstray, hbefore.2⟩
  · rintro (⟨rfl, rfl, hstray⟩ | ⟨p, rfl, hy, hstands, hstray, hbefore⟩)
    · exact ⟨rfl, hstray, nofun⟩
    · refine ⟨hstands, hstray, ?_⟩
      rw [List.take_succ_cons, List.forall_mem_cons]
      exact ⟨hy, hbefore⟩

theorem FirstStray.not_digits {t : Bytes} {x : UInt8} {position : Nat} (h : FirstStray t x position) :
    ¬ ∀ y ∈ t, IsDigit y := fun hdigits =>
  h.not_digit (hdigits x (List.mem_of_getElem? h.stands))

theorem FirstStray.le {t : Bytes} {x y : UInt8} {p q : Nat} (hp : FirstStray t x p)
    (hq : FirstStray t y q) : p ≤ q := by
  refine Nat.le_of_not_lt fun hlt => ?_
  have hy : (t.take p)[q]? = some y := by rw [List.getElem?_take_of_lt (by omega), hq.stands]
  exact hq.not_digit (hp.digits_before y (List.mem_of_getElem? hy))

theorem FirstStray.unique {t : Bytes} {x y : UInt8} {p q : Nat} (hp : FirstStray t x p)
    (hq : FirstStray t y q) : x = y ∧ p = q := by
  obtain rfl := Nat.le_antisymm (hp.le hq) (hq.le hp)
  exact ⟨Option.some.inj (hp.stands.symm.trans hq.stands), rfl⟩

theorem digits_or_stray (t : Bytes) :
    (∀ x ∈ t, IsDigit x) ∨ ∃ x position, FirstStray t x position := by
  induction t with
  | nil => exact .inl nofun
  | cons y t ih =>
    by_cases hy : IsDigit y
    · rcases ih with hall | ⟨x, position, hstray⟩
      · exact .inl (List.forall_mem_cons.mpr ⟨hy, hall⟩)
      · exact .inr ⟨x, position + 1, firstStray_cons_iff.mpr (.inr ⟨position, rfl, hy, hstray⟩)⟩
    · exact .inr ⟨y, 0, firstStray_cons_iff.mpr (.inl ⟨rfl, rfl, hy⟩)⟩

/-- Two values below sixteen are the halves of the byte they make. -/
theorem halves_of_lt {h l : UInt8} (hh : h < 16) (hl : l < 16) :
    (h * 16 + l) / 16 = h ∧ (h * 16 + l) % 16 = l := by
  have hh : h.toNat < 16 := by simpa [UInt8.lt_iff_toNat_lt] using hh
  have hl : l.toNat < 16 := by simpa [UInt8.lt_iff_toNat_lt] using hl
  constructor <;> apply UInt8.toNat_inj.mp <;>
    simp only [UInt8.toNat_add, UInt8.toNat_mul, UInt8.toNat_div, UInt8.toNat_mod,
      UInt8.reduceToNat] <;> omega

/-- Pairs of digits are read, and written again in lower case. -/
theorem decodePairs_of_digits (position : Nat) {t : Bytes} (heven : t.length % 2 = 0)
    (h : ∀ x ∈ t, IsDigit x) :
    ∃ b, decodePairs position t = .ok b ∧
      (encode b).map (fun d => Char.ofNat d.toNat) =
        t.map fun x => (Char.ofNat x.toNat).toLower := by
  induction position, t using decodePairs.induct with
  | case1 position => exact ⟨[], rfl, rfl⟩
  | case2 position x => simp at heven
  | case3 position hi lo rest hhi =>
    obtain ⟨v, -, hv, -⟩ := (h hi (by simp)).exists_value
    rw [hhi] at hv
    cases hv
  | case4 position hi lo rest v hlo _ =>
    obtain ⟨w, -, hw, -⟩ := (h lo (by simp)).exists_value
    rw [hlo] at hw
    cases hw
  | case5 position hi lo rest v w hlo hhi ih =>
    have hrest : rest.length % 2 = 0 := by simp at heven; omega
    obtain ⟨b, hb, hlower⟩ := ih hrest fun x hx => h x (by simp [hx])
    obtain ⟨v', hv, hhi', hhiLower⟩ := (h hi (by simp)).exists_value
    obtain ⟨w', hw, hlo', hloLower⟩ := (h lo (by simp)).exists_value
    obtain rfl := Option.some.inj (hhi.symm.trans hhi')
    obtain rfl := Option.some.inj (hlo.symm.trans hlo')
    obtain ⟨hdiv, hmod⟩ := halves_of_lt hv hw
    refine ⟨(v * 16 + w) :: b, by simp [decodePairs, hhi, hlo, hb, Except.map], ?_⟩
    simp only [encode, hdiv, hmod, List.map_cons, hhiLower, hloLower, hlower]

/-- The first byte that is no digit is reported, wherever it stands in its pair. -/
theorem decodePairs_of_firstStray (start : Nat) {t : Bytes} (heven : t.length % 2 = 0) {x : UInt8}
    {position : Nat} (h : FirstStray t x position) :
    decodePairs start t = .error (.badDigit x (start + position)) := by
  -- The byte is the high digit of the first pair, or its low digit, or in the pairs behind it.
  induction start, t using decodePairs.induct generalizing position with
  | case1 start => exact absurd h.stands (by simp)
  | case2 start y => simp at heven
  | case3 start hi lo rest hhi =>
    obtain ⟨rfl, rfl, -⟩ | ⟨p, -, hdigit, -⟩ := firstStray_cons_iff.mp h
    · simp [decodePairs, hhi]
    · simp [isDigit_iff, hhi] at hdigit
  | case4 start hi lo rest v hlo hhi =>
    obtain ⟨-, -, hstray⟩ | ⟨p, rfl, -, h⟩ := firstStray_cons_iff.mp h
    · simp [isDigit_iff, hhi] at hstray
    obtain ⟨rfl, rfl, -⟩ | ⟨q, -, hdigit, -⟩ := firstStray_cons_iff.mp h
    · simp [decodePairs, hhi, hlo]
    · simp [isDigit_iff, hlo] at hdigit
  | case5 start hi lo rest v w hlo hhi ih =>
    obtain ⟨-, -, hstray⟩ | ⟨p, rfl, -, h⟩ := firstStray_cons_iff.mp h
    · simp [isDigit_iff, hhi] at hstray
    obtain ⟨-, -, hstray⟩ | ⟨q, rfl, -, h⟩ := firstStray_cons_iff.mp h
    · simp [isDigit_iff, hlo] at hstray
    have hrest : rest.length % 2 = 0 := by simp at heven; omega
    rw [decodePairs, hhi, hlo]
    simp only [ih hrest h, Except.map]
    rw [Nat.add_assoc start 2 q, Nat.add_comm 2 q]

/-- A text of bytes is refused for its length, or else for its first byte that is no digit, or else it
is read. -/
theorem decode_cases (t : Bytes) :
    (t.length % 2 = 1 ∧ decode t = .error .oddLength) ∨
    (t.length % 2 = 0 ∧ ∃ x position, FirstStray t x position ∧
      decode t = .error (.badDigit x position)) ∨
    (t.length % 2 = 0 ∧ (∀ x ∈ t, IsDigit x) ∧ ∃ b, decode t = .ok b ∧
      (encode b).map (fun d => Char.ofNat d.toNat) =
        t.map fun x => (Char.ofNat x.toNat).toLower) := by
  rcases Nat.mod_two_eq_zero_or_one t.length with heven | hodd
  · have hdecode : decode t = decodePairs 0 t := by rw [decode, if_neg (by omega)]
    rw [hdecode]
    rcases digits_or_stray t with hdigits | ⟨x, position, hstray⟩
    · exact .inr (.inr ⟨heven, hdigits, decodePairs_of_digits 0 heven hdigits⟩)
    · have hbad := decodePairs_of_firstStray 0 heven hstray
      rw [Nat.zero_add] at hbad
      exact .inr (.inl ⟨heven, x, position, hstray, hbad⟩)
  · exact .inl ⟨hodd, by rw [decode, if_pos hodd]⟩

end Hex

namespace Digest

open Hex Text

/-- What a text is read as: a digest, or the fault that is reported. -/
theorem ofHex_cases (s : String) :
    ((utf8 s).length % 2 = 1 ∧ ofHex s = .error (.hex .oddLength)) ∨
    ((utf8 s).length % 2 = 0 ∧ ∃ x position, FirstStray (utf8 s) x position ∧
      ofHex s = .error (.hex (.badDigit x position))) ∨
    ((∀ x ∈ utf8 s, IsDigit x) ∧ ∃ n ≠ 32, (utf8 s).length = 2 * n ∧ ofHex s = .error (.length n)) ∨
    ((∀ x ∈ utf8 s, IsDigit x) ∧ (utf8 s).length = 64 ∧
      ∃ d, ofHex s = .ok d ∧ d.toHex = s.toLower) := by
  rcases decode_cases (utf8 s) with ⟨hodd, h⟩ | ⟨heven, x, position, hstray, h⟩ |
    ⟨-, hdigits, b, h, hlower⟩
  · exact .inl ⟨hodd, by rw [ofHex, h]⟩
  · exact .inr (.inl ⟨heven, x, position, hstray, by rw [ofHex, h]⟩)
  · have hlength : (utf8 s).length = 2 * b.length := by
      have := congrArg List.length hlower
      rwa [List.length_map, List.length_map, length_encode, eq_comm] at this
    by_cases hb : b.length = 32
    · refine .inr (.inr (.inr ⟨hdigits, by omega, ⟨b, hb⟩, by simp [ofHex, h, hb], ?_⟩))
      have hchars : s.toLower.toList = (utf8 s).map fun x => (Char.ofNat x.toNat).toLower := by
        refine String.toList_map.trans ?_
        rw [toList_of_ascii fun x hx => (hdigits x hx).ascii, List.map_map]
        rfl
      rw [toHex, toText, hlower, ← hchars, String.ofList_toList]
    · exact .inr (.inr (.inl ⟨hdigits, b.length, hb, hlength, by simp [ofHex, h, hb]⟩))

theorem exists_ofHex_iff (s : String) :
    (∃ d, ofHex s = .ok d) ↔ (utf8 s).length = 64 ∧ ∀ x ∈ utf8 s, IsDigit x := by
  rcases ofHex_cases s with ⟨hodd, h⟩ | ⟨-, x, position, hstray, h⟩ |
    ⟨-, n, hn, hlength, h⟩ | ⟨hdigits, hlength, d, h, -⟩ <;> rw [h]
  · exact ⟨nofun, fun hs => by omega⟩
  · exact ⟨nofun, fun hs => absurd hs.2 hstray.not_digits⟩
  · exact ⟨nofun, fun hs => by omega⟩
  · exact ⟨fun _ => ⟨hlength, hdigits⟩, fun _ => ⟨d, rfl⟩⟩

theorem toHex_of_ofHex {s : String} {d : Digest} (hd : ofHex s = .ok d) : d.toHex = s.toLower := by
  rcases ofHex_cases s with ⟨-, h⟩ | ⟨-, x, position, -, h⟩ | ⟨-, n, -, -, h⟩ |
    ⟨-, -, e, h, hlower⟩ <;> rw [hd] at h
  · cases h
  · cases h
  · cases h
  · cases h
    exact hlower

theorem ofHex_eq_oddLength_iff (s : String) :
    ofHex s = .error (.hex .oddLength) ↔ (utf8 s).length % 2 = 1 := by
  rcases ofHex_cases s with ⟨hodd, h⟩ | ⟨heven, x, position, -, h⟩ | ⟨-, n, -, hlength, h⟩ |
    ⟨-, hlength, d, h, -⟩ <;> rw [h]
  · exact ⟨fun _ => hodd, fun _ => rfl⟩
  · exact ⟨nofun, fun hs => by omega⟩
  · exact ⟨nofun, fun hs => by omega⟩
  · exact ⟨nofun, fun hs => by omega⟩

theorem ofHex_eq_badDigit_iff (s : String) (x : UInt8) (position : Nat) :
    ofHex s = .error (.hex (.badDigit x position)) ↔
      (utf8 s).length % 2 = 0 ∧ FirstStray (utf8 s) x position := by
  rcases ofHex_cases s with ⟨hodd, h⟩ | ⟨heven, y, p, hstray, h⟩ | ⟨hdigits, n, -, -, h⟩ |
    ⟨hdigits, -, d, h, -⟩ <;> rw [h]
  · exact ⟨nofun, fun hs => by omega⟩
  · constructor
    · rintro ⟨⟩
      exact ⟨heven, hstray⟩
    · rintro ⟨-, hs⟩
      obtain ⟨rfl, rfl⟩ := hstray.unique hs
      rfl
  · exact ⟨nofun, fun hs => absurd hdigits hs.2.not_digits⟩
  · exact ⟨nofun, fun hs => absurd hdigits hs.2.not_digits⟩

theorem ofHex_eq_length_iff (s : String) (n : Nat) :
    ofHex s = .error (.length n) ↔
      (utf8 s).length = 2 * n ∧ n ≠ 32 ∧ ∀ x ∈ utf8 s, IsDigit x := by
  rcases ofHex_cases s with ⟨hodd, h⟩ | ⟨-, x, position, hstray, h⟩ | ⟨hdigits, m, hm, hlength, h⟩ |
    ⟨hdigits, hlength, d, h, -⟩ <;> rw [h]
  · exact ⟨nofun, fun hs => by omega⟩
  · exact ⟨nofun, fun hs => absurd hs.2.2 hstray.not_digits⟩
  · constructor
    · rintro ⟨⟩
      exact ⟨hlength, hm, hdigits⟩
    · rintro ⟨hn, -, -⟩
      rw [show m = n by omega]
  · exact ⟨nofun, fun hs => by omega⟩

/-- A text is read exactly if it is sixty-four hexadecimal digits of either case; the digest is written
as the text in lower case, and what is written is read.  Any other text is refused for an odd number of
bytes; or else for the first byte that is no digit, with its position; or else for the number of bytes
that it writes. -/
theorem ofHex_accepts_digits :
    (∀ s : String,
      ((∃ d, ofHex s = .ok d) ↔ s.length = 64 ∧ ∀ c ∈ s.toList, c ∈ digits) ∧
      (∀ d, ofHex s = .ok d → d.toHex = s.toLower) ∧
      (ofHex s = .error (.hex .oddLength) ↔ (utf8 s).length % 2 = 1) ∧
      (∀ x position, ofHex s = .error (.hex (.badDigit x position)) ↔
        (utf8 s).length % 2 = 0 ∧ FirstStray (utf8 s) x position) ∧
      ∀ n, ofHex s = .error (.length n) ↔
        (utf8 s).length = 2 * n ∧ n ≠ 32 ∧ ∀ c ∈ s.toList, c ∈ digits) ∧
    ∀ d : Digest, ofHex d.toHex = .ok d := by
  refine ⟨fun s => ⟨?_, fun d => toHex_of_ofHex, ofHex_eq_oddLength_iff s, ofHex_eq_badDigit_iff s,
    fun n => ?_⟩, ofHex_toHex⟩
  · rw [exists_ofHex_iff, ← isDigit_utf8_iff]
    exact and_congr_left fun hdigits => by rw [length_utf8_of_digits hdigits]
  · rw [ofHex_eq_length_iff, ← isDigit_utf8_iff]

-- One character of two bytes is an even number of them.
example : ofHex "é" = .error (.hex (.badDigit 0xc3 0)) := rfl

end Digest
end LedgerNode
