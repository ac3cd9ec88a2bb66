import LedgerNode.Proofs.Node.Following
import LedgerNode.Proofs.Wire.Listing

/-!
The peer to take blocks from is the best of those that are ahead: the tallest, and of the tallest the one
with the smallest address.  The best so far is carried along, and nothing that was met outranks it; so
it does not matter in which order the peers are met.
-/
namespace LedgerNode

namespace PeerAddress

theorem Precedes.trans {a b c : PeerAddress} (hab : a.Precedes b) (hbc : b.Precedes c) :
    a.Precedes c := by
  rw [← compare_eq_lt_iff] at *
  exact Std.TransCmp.lt_trans hab hbc

theorem precedes_total {a b : PeerAddress} (h : a ≠ b) : a.Precedes b ∨ b.Precedes a := by
  rw [← compare_eq_lt_iff, ← compare_eq_lt_iff]
  cases hc : compare a b with
  | lt => exact .inl rfl
  | eq => exact absurd (Std.LawfulEqOrd.eq_of_compare hc) h
  | gt => exact .inr (Std.OrientedCmp.lt_of_gt hc)

end PeerAddress

namespace Sync

/-- The first peer is taller, or as tall and at a smaller address. -/
def Outranks (a b : PeerAddress × UInt64) : Prop := b.2 < a.2 ∨ a.2 = b.2 ∧ a.1.Precedes b.1

theorem isBetter_iff (a b : PeerAddress × UInt64) : isBetter a b = true ↔ Outranks a b := by
  have haddress : compare b.1 a.1 = .gt ↔ compare a.1 b.1 = .lt := Std.OrientedCmp.gt_iff_lt
  rw [isBetter, beq_iff_eq, Ordering.then_eq_gt, haddress, PeerAddress.compare_eq_lt_iff,
    Std.compare_eq_gt, Std.LawfulEqOrd.compare_eq_iff_eq, Outranks]

theorem Outranks.trans {a b c : PeerAddress × UInt64} (hab : Outranks a b) (hbc : Outranks b c) :
    Outranks a c := by
  rcases hab with hab | ⟨hab, haddress⟩
  · rcases hbc with hbc | ⟨hbc, -⟩
    · exact .inl (UInt64.lt_trans hbc hab)
    · exact .inl (hbc ▸ hab)
  · rcases hbc with hbc | ⟨hbc, haddress'⟩
    · exact .inl (hab ▸ hbc)
    · exact .inr ⟨hab.trans hbc, haddress.trans haddress'⟩

theorem outranks_total {a b : PeerAddress × UInt64} (h : a ≠ b) : Outranks a b ∨ Outranks b a := by
  by_cases hheight : a.2 = b.2
  · have haddress : a.1 ≠ b.1 := fun haddress => h (Prod.ext haddress hheight)
    rcases PeerAddress.precedes_total haddress with hab | hba
    · exact .inl (.inr ⟨hheight, hab⟩)
    · exact .inr (.inr ⟨hheight.symm, hba⟩)
  · rcases UInt64.lt_or_lt_of_ne hheight with hlt | hgt
    · exact .inr (.inl hlt)
    · exact .inl (.inl hgt)

/-- The peer itself, or one that it outranks. -/
def Leads (a b : PeerAddress × UInt64) : Prop := a = b ∨ Outranks a b

theorem Leads.trans {a b c : PeerAddress × UInt64} (hab : Leads a b) (hbc : Leads b c) :
    Leads a c := by
  rcases hab with rfl | hab
  · exact hbc
  rcases hbc with rfl | hbc
  · exact .inr hab
  · exact .inr (hab.trans hbc)

/-- Of the best so far and the next peer the better one is kept, and it leads them both. -/
theorem better_leads (b e : PeerAddress × UInt64) :
    ∃ f, better (some b) e = some f ∧ Leads f b ∧ Leads f e := by
  rw [better]
  by_cases hb : isBetter b e = true
  · exact ⟨b, if_pos hb, .inl rfl, .inr ((isBetter_iff b e).mp hb)⟩
  · refine ⟨e, if_neg hb, ?_, .inl rfl⟩
    by_cases he : e = b
    · exact .inl he
    · exact .inr ((outranks_total he).resolve_right fun h => hb ((isBetter_iff b e).mpr h))

/-- What is kept to the end leads what it began with and every peer that was met. -/
theorem foldl_better_leads (b : PeerAddress × UInt64) (es : List (PeerAddress × UInt64)) :
    ∃ f, es.foldl better (some b) = some f ∧ Leads f b ∧ ∀ e ∈ es, Leads f e := by
  induction es generalizing b with
  | nil => exact ⟨b, rfl, .inl rfl, nofun⟩
  | cons e es ih =>
    obtain ⟨c, hc, hcb, hce⟩ := better_leads b e
    obtain ⟨f, hf, hfc, hes⟩ := ih c
    refine ⟨f, by rw [List.foldl_cons, hc, hf], hfc.trans hcb, ?_⟩
    exact List.forall_mem_cons.mpr ⟨hfc.trans hce, hes⟩

section target

variable {height : UInt64} {es : List (PeerAddress × UInt64)}

theorem foldl_better_eq_none_iff : es.foldl better none = none ↔ es = [] := by
  cases es with
  | nil => simp
  | cons e es =>
    obtain ⟨f, hf, -⟩ := foldl_better_leads e es
    have hnext : better none e = some e := rfl
    simp [hnext, hf]

theorem target?_eq_none_iff : target? height es = none ↔ ∀ e ∈ es, e.2 ≤ height := by
  rw [target?, foldl_better_eq_none_iff, List.filter_eq_nil_iff]
  simp only [decide_eq_true_eq, UInt64.not_lt]

theorem leads_of_target? {e : PeerAddress × UInt64} (h : target? height es = some e) :
    e ∈ es ∧ height < e.2 ∧ ∀ f ∈ es, height < f.2 → Leads e f := by
  rw [target?] at h
  have hmem := (mem_of_foldl_better h).resolve_right (Option.some_ne_none e).symm
  obtain ⟨he, hheight⟩ := List.mem_filter.mp hmem
  refine ⟨he, by simpa using hheight, fun f hf hahead => ?_⟩
  have hf : f ∈ es.filter fun e => height < e.2 := List.mem_filter.mpr ⟨hf, by simpa using hahead⟩
  cases hes : es.filter fun e => height < e.2 with
  | nil => rw [hes] at hf; cases hf
  | cons b rest =>
    -- The first peer that is ahead has nothing to be compared with.
    obtain ⟨g, hg, hgb, hrest⟩ := foldl_better_leads b rest
    rw [hes, List.foldl_cons, show better none b = some b from rfl, hg] at h
    obtain rfl := Option.some.inj h
    rw [hes] at hf
    exact List.forall_mem_cons.mpr ⟨hgb, hrest⟩ f hf

/-- The target is the one peer ahead that outranks all others. -/
theorem target?_eq_some_iff {e : PeerAddress × UInt64} :
    target? height es = some e ↔ e ∈ es ∧ height < e.2 ∧ ∀ f ∈ es, f = e ∨ Outranks e f := by
  constructor
  · intro h
    obtain ⟨he, hheight, hleads⟩ := leads_of_target? h
    refine ⟨he, hheight, fun f hf => ?_⟩
    by_cases hahead : height < f.2
    · exact (hleads f hf hahead).imp_left Eq.symm
    · exact .inr (.inl (UInt64.lt_of_le_of_lt (UInt64.not_lt.mp hahead) hheight))
  · rintro ⟨he, hheight, h⟩
    exact target?_of_best he hheight fun f hf hfe =>
      (isBetter_iff e f).mpr ((h f hf).resolve_left hfe)

end target

/-- A peer outranks all others exactly if its height is the greatest, and its address the smallest among
all of that height. -/
theorem outranks_all_iff (m : SortedMap PeerAddress UInt64) (a : PeerAddress) (x : UInt64)
    (ha : m.get? a = some x) :
    (∀ e ∈ m.entries, e = (a, x) ∨ Outranks (a, x) e) ↔
      ∀ b y, m.get? b = some y → y ≤ x ∧ (y = x → b = a ∨ a.Precedes b) := by
  constructor
  · intro h b y hb
    rcases h (b, y) (m.get?_eq_some_iff.mp hb) with heq | hlt | ⟨hxy, haddress⟩
    · cases heq
      exact ⟨UInt64.le_refl x, fun _ => .inl rfl⟩
    · exact ⟨UInt64.le_of_lt hlt, fun hyx => absurd (hyx ▸ hlt) (UInt64.lt_irrefl x)⟩
    · exact ⟨UInt64.le_of_eq hxy.symm, fun _ => .inr haddress⟩
  · rintro h ⟨b, y⟩ he
    have hb := m.get?_eq_some_iff.mpr he
    obtain ⟨hle, haddress⟩ := h b y hb
    rcases UInt64.lt_or_eq_of_le hle with hlt | rfl
    · exact .inr (.inl hlt)
    · rcases haddress rfl with rfl | hbefore
      · exact .inl rfl
      · exact .inr (.inr ⟨rfl, hbefore⟩)

/-- The target is the same in whatever order the peers are met.  There is none exactly if no peer is
ahead; otherwise it is a peer that is ahead, of the greatest height, and at the smallest address, by the
bytes of the host and then by the port, among all peers of that height. -/
theorem target_is_smallest_tallest (height : UInt64) (m : SortedMap PeerAddress UInt64) :
    (∀ es : List (PeerAddress × UInt64), es.Perm m.entries →
      target? height es = target? height m.entries) ∧
    (target? height m.entries = none ↔ ∀ a x, m.get? a = some x → x ≤ height) ∧
    ∀ a x, target? height m.entries = some (a, x) ↔
      m.get? a = some x ∧ height < x ∧
        ∀ b y, m.get? b = some y → y ≤ x ∧ (y = x → b = a ∨ a.Precedes b) := by
  refine ⟨fun es hperm => Option.ext fun e => ?_, ?_, fun a x => ?_⟩
  · simp only [target?_eq_some_iff, hperm.mem_iff]
  · rw [target?_eq_none_iff, Prod.forall]
    simp only [m.get?_eq_some_iff]
  · rw [target?_eq_some_iff, ← m.get?_eq_some_iff]
    exact and_congr_right fun ha => and_congr_right fun _ => outranks_all_iff m a x ha

end Sync
end LedgerNode
