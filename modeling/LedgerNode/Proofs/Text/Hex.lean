import LedgerNode.Digest
import LedgerNode.Proofs.Text.Encoding

/-!
Bytes written as hexadecimal digits are read back, and so are digests.
-/
namespace LedgerNode.Hex

open Text

theorem digit_ascii {v : UInt8} (h : v < 16) : digit v < 0x80 := by
  have key : ∀ n < 16, digit (UInt8.ofNat n) < 0x80 := by decide
  have hn : v.toNat < 16 := by simpa [UInt8.lt_iff_toNat_lt] using h
  simpa using key v.toNat hn

theorem digitValue_digit {v : UInt8} (h : v < 16) : digitValue? (digit v) = some v := by
  have key : ∀ n < 16, digitValue? (digit (UInt8.ofNat n)) = some (UInt8.ofNat n) := by decide
  have hn : v.toNat < 16 := by simpa [UInt8.lt_iff_toNat_lt] using h
  simpa using key v.toNat hn

theorem div_lt (b : UInt8) : b / 16 < 16 := by
  have := b.toNat_lt
  rw [UInt8.lt_iff_toNat_lt, UInt8.toNat_div]
  simp
  omega

theorem mod_lt (b : UInt8) : b % 16 < 16 := by
  rw [UInt8.lt_iff_toNat_lt, UInt8.toNat_mod]
  simp
  omega

/-- A byte is the sum of its halves. -/
theorem halves (b : UInt8) : b / 16 * 16 + b % 16 = b := by
  apply UInt8.toNat_inj.mp
  have := b.toNat_lt
  simp only [UInt8.toNat_add, UInt8.toNat_mul, UInt8.toNat_div, UInt8.toNat_mod,
    UInt8.reduceToNat]
  omega

theorem digits_ascii (b : Bytes) : ∀ d ∈ encode b, d < 0x80 := by
  induction b with
  | nil => simp [encode]
  | cons x b ih =>
    intro d hd
    rcases List.mem_cons.mp hd with rfl | hd
    · exact digit_ascii (div_lt x)
    · rcases List.mem_cons.mp hd with rfl | hd
      · exact digit_ascii (mod_lt x)
      · exact ih d hd

/-- Bytes below 0x80 are the text of the characters they stand for. -/
theorem utf8_ofAscii {ds : Bytes} (h : ∀ d ∈ ds, d < 0x80) :
    utf8 (String.ofList (ds.map fun d => Char.ofNat d.toNat)) = ds := by
  rw [utf8_ofList]
  induction ds with
  | nil => rfl
  | cons d ds ih =>
    have hd : d.toNat < 0x80 := by simpa [UInt8.lt_iff_toNat_lt] using h d (by simp)
    have hc := toNat_ofNat_of_ascii hd
    rw [List.map_cons, List.flatMap_cons, utf8EncodeChar_of_ascii (by omega), hc,
      ih fun x hx => h x (by simp [hx])]
    simp

/-- A text of bytes below 0x80 has one character for each. -/
theorem toList_of_ascii {s : String} (h : ∀ x ∈ utf8 s, x < 0x80) :
    s.toList = (utf8 s).map fun x => Char.ofNat x.toNat := by
  have hs : String.ofList ((utf8 s).map fun x => Char.ofNat x.toNat) = s :=
    utf8_injective (utf8_ofAscii h)
  rw [← String.toList_ofList (l := (utf8 s).map fun x => Char.ofNat x.toNat), hs]

theorem utf8_toText (b : Bytes) : utf8 (toText b) = encode b := utf8_ofAscii (digits_ascii b)

theorem decodePairs_encode (b : Bytes) (position : Nat) :
    decodePairs position (encode b) = .ok b := by
  induction b generalizing position with
  | nil => rfl
  | cons x b ih =>
    rw [encode, decodePairs, digitValue_digit (div_lt x), digitValue_digit (mod_lt x)]
    simp [ih, Except.map, halves]

theorem decode_encode (b : Bytes) : decode (encode b) = .ok b := by
  have hlen : ¬ (encode b).length % 2 = 1 := by rw [length_encode]; omega
  rw [decode, if_neg hlen, decodePairs_encode]

end LedgerNode.Hex

namespace LedgerNode.Digest

@[simp] theorem ofHex_toHex (d : Digest) : ofHex d.toHex = .ok d := by
  rw [ofHex, toHex, Hex.utf8_toText, Hex.decode_encode]
  simp [d.length_eq]

end LedgerNode.Digest
