import Mathlib.Data.List.Basic
import LedgerNode.Json.Token
import LedgerNode.Proofs.Text.Encoding

/-!
Strings in a JSON text.  What is written for a string is read back as that string, whatever
characters it has; it is text again, and it has no control characters.
-/
namespace LedgerNode.Json

open Text

theorem shortEscape_cases {b letter : UInt8} (h : shortEscape? b = some letter) :
    unescape? letter = some b ∧ letter ≠ 0x75 ∧ 0x20 ≤ letter ∧ letter < 0x80 ∧ b < 0x80 := by
  unfold shortEscape? at h
  repeat' split at h
  all_goals cases h
  all_goals subst_vars; decide

theorem unit_of_control {b : UInt8} (h : b < 0x20) :
    unit? 0x30 0x30 (Hex.digit (b / 16)) (Hex.digit (b % 16)) = some b.toNat := by
  have key : ∀ n < 32, unit? 0x30 0x30 (Hex.digit (UInt8.ofNat n / 16))
      (Hex.digit (UInt8.ofNat n % 16)) = some n := by decide
  have hn : b.toNat < 32 := by simpa [UInt8.lt_iff_toNat_lt] using h
  simpa using key b.toNat hn

theorem charBytes_of_ascii {n : Nat} (h : n < 0x80) : charBytes n = [n.toUInt8] := by
  have hc := toNat_ofNat_of_ascii h
  rw [charBytes, Char.toString, String.singleton_eq_ofList, utf8_ofList, List.flatMap_cons,
    utf8EncodeChar_of_ascii (by omega), hc]
  rfl

/-- The three ways in which a byte stands in a string. -/
theorem escapeByte_cases (b : UInt8) :
    (∃ letter, shortEscape? b = some letter ∧ escapeByte b = [0x5c, letter]) ∨
    (b < 0x20 ∧
      escapeByte b = [0x5c, 0x75, 0x30, 0x30, Hex.digit (b / 16), Hex.digit (b % 16)]) ∨
    (¬ b < 0x20 ∧ b ≠ 0x22 ∧ b ≠ 0x5c ∧ escapeByte b = [b]) := by
  cases h : shortEscape? b with
  | some letter => exact Or.inl ⟨letter, rfl, by simp [escapeByte, h]⟩
  | none =>
    by_cases hb : b < 0x20
    · exact Or.inr (Or.inl ⟨hb, by simp [escapeByte, h, hb]⟩)
    · have hq : b ≠ 0x22 := by rintro rfl; simp [shortEscape?] at h
      have hs : b ≠ 0x5c := by rintro rfl; simp [shortEscape?] at h
      exact Or.inr (Or.inr ⟨hb, hq, hs, by simp [escapeByte, h, hb]⟩)

theorem readText_escapeByte (b : UInt8) (rest : Bytes) :
    readText (escapeByte b ++ rest) = (readText rest).map (b :: ·) := by
  rcases escapeByte_cases b with ⟨letter, hl, he⟩ | ⟨hb, he⟩ | ⟨hb, hq, hs, he⟩
  · obtain ⟨hu, hne, -⟩ := shortEscape_cases hl
    rw [he, readText.eq_def]
    simp [hu, hne]
  · have hn : b.toNat < 0x20 := by simpa [UInt8.lt_iff_toNat_lt] using hb
    have hlow : ¬ (0xdc00 ≤ b.toNat ∧ b.toNat ≤ 0xdfff) := by omega
    have hplain : b.toNat < 0xd800 ∨ 0xdfff < b.toNat := by omega
    rw [he, readText.eq_def]
    simp [unit_of_control hb, hlow, hplain, charBytes_of_ascii (show b.toNat < 0x80 by omega)]
  · rw [he, readText.eq_def]
    simp [hb, hq, hs]

theorem skipText_escapeByte (b : UInt8) (rest : Bytes) :
    skipText (escapeByte b ++ rest) = skipText rest := by
  rcases escapeByte_cases b with ⟨letter, hl, he⟩ | ⟨hb, he⟩ | ⟨hb, hq, hs, he⟩
  · obtain ⟨hu, hne, -⟩ := shortEscape_cases hl
    rw [he, skipText.eq_def]
    simp [hu, hne]
  · rw [he, skipText.eq_def]
    simp [unit_of_control hb]
  · rw [he, skipText.eq_def]
    simp [hb, hq, hs]

theorem readText_escaped (content rest : Bytes) :
    readText (content.flatMap escapeByte ++ 0x22 :: rest) = .ok content := by
  induction content with
  | nil => rw [List.flatMap_nil, List.nil_append, readText.eq_def]; simp
  | cons b content ih =>
    rw [List.flatMap_cons, List.append_assoc, readText_escapeByte, ih]
    rfl

theorem skipText_escaped (content rest : Bytes) :
    skipText (content.flatMap escapeByte ++ 0x22 :: rest) = .ok rest := by
  induction content with
  | nil => rw [List.flatMap_nil, List.nil_append, skipText.eq_def]; simp
  | cons b content ih => rw [List.flatMap_cons, List.append_assoc, skipText_escapeByte, ih]

/-- A string is read back, from behind its opening mark. -/
theorem scanText_escaped (s : String) (rest : Bytes) :
    scanText ((utf8 s).flatMap escapeByte ++ 0x22 :: rest) = (.text s, rest) := by
  simp [scanText, readText_escaped, skipText_escaped, textDoc]

/-- The digits of a control character are plain. -/
theorem controlDigits {b d : UInt8} (hb : b < 0x20)
    (hd : d = Hex.digit (b / 16) ∨ d = Hex.digit (b % 16)) : d < 0x80 ∧ 0x20 ≤ d := by
  have hn : b.toNat < 32 := by simpa [UInt8.lt_iff_toNat_lt] using hb
  rcases hd with rfl | rfl
  · have key : ∀ n < 32, Hex.digit (UInt8.ofNat n / 16) < 0x80 ∧
        0x20 ≤ Hex.digit (UInt8.ofNat n / 16) := by decide
    simpa using key b.toNat hn
  · have key : ∀ n < 32, Hex.digit (UInt8.ofNat n % 16) < 0x80 ∧
        0x20 ≤ Hex.digit (UInt8.ofNat n % 16) := by decide
    simpa using key b.toNat hn

theorem isText_escapeByte {b : UInt8} (h : b < 0x80) : IsText (escapeByte b) := by
  have hslash : (0x5c : UInt8) < 0x80 := by decide
  rcases escapeByte_cases b with ⟨letter, hl, he⟩ | ⟨hb, he⟩ | ⟨-, -, -, he⟩
  · obtain ⟨-, -, -, hlow, -⟩ := shortEscape_cases hl
    rw [he]
    exact (isText_of_ascii hlow).cons hslash
  · have hhi := (controlDigits hb (Or.inl rfl)).1
    have hlo := (controlDigits hb (Or.inr rfl)).1
    have htail : IsText [0x30, 0x30, Hex.digit (b / 16), Hex.digit (b % 16)] :=
      (((isText_of_ascii hlo).cons hhi).cons (by decide)).cons (by decide)
    rw [he]
    exact (htail.cons (by decide)).cons hslash
  · rw [he]
    exact isText_of_ascii h

theorem escapeByte_of_le {b : UInt8} (h : 0x80 ≤ b) : escapeByte b = [b] := by
  rcases escapeByte_cases b with ⟨letter, hl, -⟩ | ⟨hb, -⟩ | ⟨-, -, -, he⟩
  · obtain ⟨-, -, -, -, hlow⟩ := shortEscape_cases hl
    exact absurd hlow (UInt8.not_lt.mpr h)
  · exact absurd (UInt8.lt_of_lt_of_le hb (by decide : (0x20 : UInt8) ≤ 0x80))
      (UInt8.not_lt.mpr h)
  · exact he

/-- Escaping acts on characters below 0x80 only, and makes such characters of them. -/
theorem isText_escaped (s : String) : IsText ((utf8 s).flatMap escapeByte) := by
  rw [utf8_eq_flatMap, List.flatMap_assoc]
  apply isText_flatMap
  intro c _
  by_cases hc : c.toNat < 0x80
  · have hb : c.toNat.toUInt8 < 0x80 := by simp [UInt8.lt_iff_toNat_lt]; omega
    rw [utf8EncodeChar_of_ascii hc, List.flatMap_cons, List.flatMap_nil, List.append_nil]
    exact isText_escapeByte hb
  · have hid : (String.utf8EncodeChar c).flatMap escapeByte = String.utf8EncodeChar c := by
      calc
        _ = (String.utf8EncodeChar c).flatMap fun b => [b] := List.flatMap_congr fun b hb =>
          escapeByte_of_le (le_of_mem_utf8EncodeChar (by omega) hb)
        _ = _ := by simp
    rw [hid]
    exact ⟨String.ofList [c], by
      rw [utf8_ofList, List.flatMap_cons, List.flatMap_nil, List.append_nil]⟩

theorem isText_renderText (s : String) : IsText (renderText s) :=
  ((isText_escaped s).append (isText_of_ascii (by decide))).cons (by decide)

theorem le_of_mem_escapeByte (b : UInt8) : ∀ c ∈ escapeByte b, (0x20 : UInt8) ≤ c := by
  rcases escapeByte_cases b with ⟨letter, hl, he⟩ | ⟨hb, he⟩ | ⟨hb, -, -, he⟩
  · obtain ⟨-, -, hle, -⟩ := shortEscape_cases hl
    simp [he, hle]
  · have hhi := (controlDigits hb (Or.inl rfl)).2
    have hlo := (controlDigits hb (Or.inr rfl)).2
    simp [he, hhi, hlo]
  · simpa [he] using hb

theorem le_of_mem_renderText (s : String) : ∀ b ∈ renderText s, (0x20 : UInt8) ≤ b := by
  have hescaped : ∀ b ∈ (utf8 s).flatMap escapeByte, (0x20 : UInt8) ≤ b := by
    intro b hb
    obtain ⟨c, -, hc⟩ := List.mem_flatMap.mp hb
    exact le_of_mem_escapeByte c b hc
  intro b hb
  rcases List.mem_cons.mp hb with rfl | hb
  · decide
  · rcases List.mem_append.mp hb with hb | hb
    · exact hescaped b hb
    · rw [List.mem_singleton.mp hb]
      decide

end LedgerNode.Json
