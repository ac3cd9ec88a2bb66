import LedgerNode.Text.Line

/-!
Bytes that are the UTF-8 form of some text: they may be joined, every byte below 0x80 is such a form
by itself, and no other byte of one lies below 0x80.
-/
namespace LedgerNode.Text

theorem utf8_append (s t : String) : utf8 (s ++ t) = utf8 s ++ utf8 t := by
  simp [utf8, String.toByteArray_append]

theorem utf8_ofList (cs : List Char) :
    utf8 (String.ofList cs) = cs.flatMap String.utf8EncodeChar := by
  simp [utf8, List.utf8Encode]

theorem utf8_eq_flatMap (s : String) : utf8 s = s.toList.flatMap String.utf8EncodeChar := by
  rw [← utf8_ofList, String.ofList_toList]

theorem utf8EncodeChar_of_ascii {c : Char} (h : c.toNat < 0x80) :
    String.utf8EncodeChar c = [c.toNat.toUInt8] := by
  have hc : c.val.toNat ≤ 0x7f := Nat.le_of_lt_succ h
  simp only [String.utf8EncodeChar, hc, if_true]
  rfl

theorem le_of_mem_utf8EncodeChar {c : Char} (h : 0x80 ≤ c.toNat) {b : UInt8}
    (hb : b ∈ String.utf8EncodeChar c) : 0x80 ≤ b := by
  have hc : ¬ c.val.toNat ≤ 0x7f := by
    have : c.val.toNat = c.toNat := rfl
    omega
  simp only [String.utf8EncodeChar, hc, if_false] at hb
  rw [UInt8.le_iff_toNat_le]
  split at hb
  · simp only [List.mem_cons, List.not_mem_nil, or_false] at hb
    rcases hb with rfl | rfl <;> simp [UInt8.toNat_ofNat'] <;> omega
  · split at hb <;> simp only [List.mem_cons, List.not_mem_nil, or_false] at hb
    · rcases hb with rfl | rfl | rfl <;> simp [UInt8.toNat_ofNat'] <;> omega
    · rcases hb with rfl | rfl | rfl | rfl <;> simp [UInt8.toNat_ofNat'] <;> omega

/-- The bytes are the UTF-8 form of a text. -/
def IsText (b : Bytes) : Prop := ∃ s, utf8 s = b

theorem isText_utf8 (s : String) : IsText (utf8 s) := ⟨s, rfl⟩

theorem isText_nil : IsText [] := ⟨"", by simp [utf8]⟩

theorem IsText.append {b c : Bytes} (hb : IsText b) (hc : IsText c) : IsText (b ++ c) := by
  obtain ⟨s, rfl⟩ := hb
  obtain ⟨t, rfl⟩ := hc
  exact ⟨s ++ t, utf8_append s t⟩

theorem toNat_ofNat_of_ascii {n : Nat} (h : n < 0x80) : (Char.ofNat n).toNat = n := by
  have hn : n.isValidChar := Or.inl (by omega)
  rw [Char.ofNat, dif_pos hn]
  rfl

theorem isText_of_ascii {b : UInt8} (h : b < 0x80) : IsText [b] := by
  have hb : b.toNat < 0x80 := by simpa [UInt8.lt_iff_toNat_lt] using h
  have hc := toNat_ofNat_of_ascii hb
  refine ⟨String.ofList [Char.ofNat b.toNat], ?_⟩
  rw [utf8_ofList, List.flatMap_cons, utf8EncodeChar_of_ascii (by omega), hc]
  simp

theorem IsText.cons {b : UInt8} (h : b < 0x80) {c : Bytes} (hc : IsText c) : IsText (b :: c) :=
  (isText_of_ascii h).append hc

theorem isText_flatMap {α : Type} (f : α → Bytes) (xs : List α) (h : ∀ x ∈ xs, IsText (f x)) :
    IsText (xs.flatMap f) := by
  induction xs with
  | nil => exact isText_nil
  | cons x xs ih =>
    have hx := h x (by simp)
    have hxs := ih fun y hy => h y (by simp [hy])
    exact hx.append hxs

/-- What stands before a byte below 0x80 is a text where the whole is one. -/
theorem IsText.of_append {b : UInt8} (hb : b < 0x80) {s : Bytes} (h : IsText (s ++ [b])) :
    IsText s := by
  obtain ⟨text, htext⟩ := h
  rw [utf8_eq_flatMap] at htext
  rcases List.eq_nil_or_concat text.toList with hnil | ⟨cs, c, hcs⟩
  · simp [hnil] at htext
  · rw [hcs, List.concat_eq_append, List.flatMap_append, List.flatMap_singleton] at htext
    by_cases hc : c.toNat < 0x80
    · rw [utf8EncodeChar_of_ascii hc] at htext
      exact ⟨String.ofList cs, by rw [utf8_ofList, (List.append_inj' htext rfl).1]⟩
    · obtain ⟨front, last, hchar⟩ :=
        (List.eq_nil_or_concat _).resolve_left (String.utf8EncodeChar_ne_nil (c := c))
      rw [hchar, List.concat_eq_append, ← List.append_assoc] at htext
      obtain ⟨-, hlast⟩ := List.append_inj' htext rfl
      cases hlast
      have hle := le_of_mem_utf8EncodeChar (Nat.le_of_not_lt hc) (b := b) (by simp [hchar])
      exact absurd hb (UInt8.not_lt.mpr hle)

/-- A text begins with the character that its first byte below 0x80 stands for. -/
theorem toList_of_utf8_cons {s : String} {b : UInt8} {rest : Bytes} (hb : b < 0x80)
    (h : utf8 s = b :: rest) : s.toList.head? = some (Char.ofNat b.toNat) := by
  rw [utf8_eq_flatMap] at h
  cases hs : s.toList with
  | nil => simp [hs] at h
  | cons c cs =>
    rw [hs, List.flatMap_cons] at h
    by_cases hc : c.toNat < 0x80
    · rw [utf8EncodeChar_of_ascii hc, List.singleton_append, List.cons.injEq] at h
      have hn : b.toNat = c.toNat := by rw [← h.1]; simp; omega
      simp [hn]
    · obtain ⟨x, xs, hx⟩ := List.exists_cons_of_ne_nil (String.utf8EncodeChar_ne_nil (c := c))
      have hle := le_of_mem_utf8EncodeChar (by omega) (c := c) (b := x) (by simp [hx])
      rw [hx, List.cons_append, List.cons.injEq] at h
      rw [h.1] at hle
      exact absurd hb (by simpa using hle)

end LedgerNode.Text
