import LedgerNode.Proofs.Text.Encoding

/-!
The order of texts.  They are compared character by character, and their UTF-8 forms byte by byte, with
the same result.
-/
namespace LedgerNode.Text

/-- The first differs from the second at a byte, where it has the smaller one, and neither has ended
before. -/
inductive SplitsBelow : Bytes → Bytes → Prop
  | here {x y : UInt8} (h : x < y) (xs ys : Bytes) : SplitsBelow (x :: xs) (y :: ys)
  | later (x : UInt8) {xs ys : Bytes} (h : SplitsBelow xs ys) : SplitsBelow (x :: xs) (x :: ys)

theorem SplitsBelow.append_lt {xs ys : Bytes} (h : SplitsBelow xs ys) (us vs : Bytes) :
    xs ++ us < ys ++ vs := by
  induction h with
  | here hlt xs ys => exact List.cons_lt_cons_iff.mpr (Or.inl hlt)
  | later x _ ih => exact List.cons_lt_cons_iff.mpr (Or.inr ⟨rfl, ih⟩)

theorem splitsBelow_ofNat {m n : Nat} (hn : n < 256) (h : m < n) (xs ys : Bytes) :
    SplitsBelow (.ofNat m :: xs) (.ofNat n :: ys) :=
  .here ((UInt8.ofNat_lt_iff_lt (Nat.lt_trans h hn) hn).mpr h) xs ys

theorem splitsBelow_cons_ofNat {m n : Nat} {xs ys : Bytes} (hn : n < 256) (hle : m ≤ n)
    (h : m = n → SplitsBelow xs ys) : SplitsBelow (.ofNat m :: xs) (.ofNat n :: ys) := by
  rcases Nat.lt_or_eq_of_le hle with hlt | heq
  · exact splitsBelow_ofNat hn hlt xs ys
  · rw [heq]
    exact .later _ (h heq)

/-- Of two characters the greater has the longer form, which begins with a greater byte, or the two
forms have the same length, and their digits are in the order of their weights. -/
theorem splitsBelow_utf8EncodeChar {c d : Char} (h : c < d) :
    SplitsBelow (String.utf8EncodeChar c) (String.utf8EncodeChar d) := by
  have hlt : c.val.toNat < d.val.toNat := h
  have hvalid : d.val.toNat < 0x110000 := d.valid.elim (fun h => Nat.lt_trans h (by decide)) And.right
  unfold String.utf8EncodeChar
  generalize c.val.toNat = m at hlt
  generalize d.val.toNat = n at hlt hvalid
  by_cases h1 : n ≤ 0x7f
  · rw [if_pos h1, if_pos (by omega)]
    exact splitsBelow_ofNat (by omega) hlt _ _
  rw [if_neg h1]
  by_cases h2 : n ≤ 0x7ff
  · rw [if_pos h2]
    by_cases hm1 : m ≤ 0x7f
    · rw [if_pos hm1]
      exact splitsBelow_ofNat (by omega) (by omega) _ _
    · rw [if_neg hm1, if_pos (by omega)]
      exact splitsBelow_cons_ofNat (by omega) (by omega) fun _ =>
        splitsBelow_ofNat (by omega) (by omega) _ _
  rw [if_neg h2]
  by_cases h3 : n ≤ 0xffff
  · rw [if_pos h3]
    by_cases hm1 : m ≤ 0x7f
    · rw [if_pos hm1]
      exact splitsBelow_ofNat (by omega) (by omega) _ _
    rw [if_neg hm1]
    by_cases hm2 : m ≤ 0x7ff
    · rw [if_pos hm2]
      exact splitsBelow_ofNat (by omega) (by omega) _ _
    · rw [if_neg hm2, if_pos (by omega)]
      exact splitsBelow_cons_ofNat (by omega) (by omega) fun _ =>
        splitsBelow_cons_ofNat (by omega) (by omega) fun _ =>
          splitsBelow_ofNat (by omega) (by omega) _ _
  rw [if_neg h3]
  by_cases hm1 : m ≤ 0x7f
  · rw [if_pos hm1]
    exact splitsBelow_ofNat (by omega) (by omega) _ _
  rw [if_neg hm1]
  by_cases hm2 : m ≤ 0x7ff
  · rw [if_pos hm2]
    exact splitsBelow_ofNat (by omega) (by omega) _ _
  rw [if_neg hm2]
  by_cases hm3 : m ≤ 0xffff
  · rw [if_pos hm3]
    exact splitsBelow_ofNat (by omega) (by omega) _ _
  · rw [if_neg hm3]
    exact splitsBelow_cons_ofNat (by omega) (by omega) fun _ =>
      splitsBelow_cons_ofNat (by omega) (by omega) fun _ =>
        splitsBelow_cons_ofNat (by omega) (by omega) fun _ =>
          splitsBelow_ofNat (by omega) (by omega) _ _

theorem flatMap_utf8EncodeChar_lt {cs ds : List Char} (h : cs < ds) :
    cs.flatMap String.utf8EncodeChar < ds.flatMap String.utf8EncodeChar := by
  induction ds generalizing cs with
  | nil => exact absurd h (List.not_lt_nil cs)
  | cons d ds ih =>
    rw [List.flatMap_cons]
    cases cs with
    | nil =>
      obtain ⟨b, bs, hd⟩ := List.exists_cons_of_ne_nil (String.utf8EncodeChar_ne_nil (c := d))
      rw [hd]
      exact List.nil_lt_cons b _
    | cons c cs =>
      rw [List.flatMap_cons]
      rcases List.cons_lt_cons_iff.mp h with hlt | ⟨rfl, hrest⟩
      · exact (splitsBelow_utf8EncodeChar hlt).append_lt _ _
      · exact List.append_left_lt (ih hrest)

theorem utf8_lt_iff {s t : String} : utf8 s < utf8 t ↔ s < t := by
  have hforward {s t : String} (h : s < t) : utf8 s < utf8 t := by
    rw [utf8_eq_flatMap, utf8_eq_flatMap]
    exact flatMap_utf8EncodeChar_lt h
  refine ⟨fun h => Classical.byContradiction fun hst => ?_, hforward⟩
  by_cases hts : t < s
  · exact List.lt_asymm h (hforward hts)
  · obtain rfl := String.le_antisymm (String.not_lt.mp hst) (String.not_lt.mp hts)
    exact List.lt_irrefl _ h

end LedgerNode.Text
