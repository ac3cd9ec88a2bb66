/-!
Finite maps as lists of entries in strictly increasing order of their keys.  Two maps with the same
look-ups have the same entries, so equality of maps is equality of contents.
-/
namespace LedgerNode

structure SortedMap (α : Type) (β : Type) [Ord α] where
  entries : List (α × β)
  sorted : entries.Pairwise (fun a b => compare a.1 b.1 = .lt)

namespace SortedMap

variable {α β : Type} [Ord α]

instance [DecidableEq α] [DecidableEq β] : DecidableEq (SortedMap α β) := fun m n =>
  decidable_of_iff (m.entries = n.entries) ⟨fun h => by cases m; cases n; simp_all, fun h => by rw [h]⟩

def empty : SortedMap α β := ⟨[], .nil⟩

instance : EmptyCollection (SortedMap α β) := ⟨empty⟩
instance : Inhabited (SortedMap α β) := ⟨empty⟩

def size (m : SortedMap α β) : Nat := m.entries.length
def isEmpty (m : SortedMap α β) : Bool := m.entries.isEmpty
def keys (m : SortedMap α β) : List α := m.entries.map (·.1)
def values (m : SortedMap α β) : List β := m.entries.map (·.2)

def lookup (k : α) : List (α × β) → Option β
  | [] => none
  | e :: rest => if compare k e.1 = .eq then some e.2 else lookup k rest

def get? (m : SortedMap α β) (k : α) : Option β := lookup k m.entries
def contains (m : SortedMap α β) (k : α) : Bool := (m.get? k).isSome

instance : Membership α (SortedMap α β) := ⟨fun m k => m.contains k⟩
instance (m : SortedMap α β) (k : α) : Decidable (k ∈ m) := inferInstanceAs (Decidable (m.contains k))

def insertEntry (k : α) (v : β) : List (α × β) → List (α × β)
  | [] => [(k, v)]
  | e :: rest =>
    match compare k e.1 with
    | .lt => (k, v) :: e :: rest
    | .eq => (k, v) :: rest
    | .gt => e :: insertEntry k v rest

theorem mem_insertEntry {k : α} {v : β} {es : List (α × β)} {x : α × β}
    (h : x ∈ insertEntry k v es) : x = (k, v) ∨ x ∈ es := by
  induction es with
  | nil => simpa [insertEntry] using h
  | cons e rest ih =>
    unfold insertEntry at h
    split at h
    · simpa using h
    · rcases List.mem_cons.1 h with h | h <;> simp [h]
    · rcases List.mem_cons.1 h with h | h
      · simp [h]
      · rcases ih h with h | h <;> simp [h]

variable [Std.TransOrd α] [Std.LawfulEqOrd α]

theorem pairwise_insertEntry (k : α) (v : β) {es : List (α × β)}
    (h : es.Pairwise (fun a b => compare a.1 b.1 = .lt)) :
    (insertEntry k v es).Pairwise (fun a b => compare a.1 b.1 = .lt) := by
  induction es with
  | nil => simp [insertEntry]
  | cons e rest ih =>
    have ⟨he, hr⟩ := List.pairwise_cons.1 h
    unfold insertEntry
    split
    · rename_i hlt
      refine List.pairwise_cons.2 ⟨fun x hx => ?_, h⟩
      rcases List.mem_cons.1 hx with rfl | hx
      · exact hlt
      · exact Std.TransCmp.lt_trans hlt (he x hx)
    · rename_i heq
      refine List.pairwise_cons.2 ⟨fun x hx => ?_, hr⟩
      rw [Std.LawfulEqOrd.eq_of_compare heq]
      exact he x hx
    · rename_i hgt
      refine List.pairwise_cons.2 ⟨fun x hx => ?_, ih hr⟩
      rcases mem_insertEntry hx with rfl | hx
      · exact Std.OrientedCmp.lt_of_gt hgt
      · exact he x hx

/-- Adds an entry, in place of an older one of the same key. -/
def insert (m : SortedMap α β) (k : α) (v : β) : SortedMap α β :=
  ⟨insertEntry k v m.entries, pairwise_insertEntry k v m.sorted⟩

def erase (m : SortedMap α β) (k : α) : SortedMap α β :=
  ⟨m.entries.filter (fun e => compare k e.1 != .eq), m.sorted.filter _⟩

/-- Of several entries of one key the last counts. -/
def ofList (es : List (α × β)) : SortedMap α β := es.foldl (fun m e => m.insert e.1 e.2) empty

omit [Std.TransOrd α] [Std.LawfulEqOrd α] in
@[simp] theorem get?_empty (k : α) : (empty : SortedMap α β).get? k = none := rfl

omit [Std.TransOrd α] [Std.LawfulEqOrd α] in
@[simp] theorem entries_empty : (empty : SortedMap α β).entries = [] := rfl

section lookups

variable [DecidableEq α]

omit [Std.TransOrd α] in
theorem lookup_cons (k : α) (e : α × β) (rest : List (α × β)) :
    lookup k (e :: rest) = if k = e.1 then some e.2 else lookup k rest := by
  simp only [lookup, Std.LawfulEqOrd.compare_eq_iff_eq]

omit [Std.TransOrd α] in
theorem lookup_insertEntry (k : α) (v : β) (k' : α) (es : List (α × β)) :
    lookup k' (insertEntry k v es) = if k' = k then some v else lookup k' es := by
  induction es with
  | nil => simp only [insertEntry, lookup_cons]
  | cons e rest ih =>
    unfold insertEntry
    split
    · simp only [lookup_cons]
    · rename_i heq
      have := Std.LawfulEqOrd.eq_of_compare heq
      subst this
      simp only [lookup_cons]
      split <;> rfl
    · rename_i hgt
      have hne : k ≠ e.1 := by rintro rfl; simp at hgt
      simp only [lookup_cons, ih]
      by_cases h : k' = e.1
      · subst h; simp [Ne.symm hne]
      · simp [h]

@[simp] theorem get?_insert (m : SortedMap α β) (k : α) (v : β) (k' : α) :
    (m.insert k v).get? k' = if k' = k then some v else m.get? k' :=
  lookup_insertEntry k v k' m.entries

omit [Std.TransOrd α] in
theorem lookup_filter_ne (k k' : α) (es : List (α × β)) :
    lookup k' (es.filter (fun e => compare k e.1 != .eq)) =
      if k' = k then none else lookup k' es := by
  induction es with
  | nil => simp [lookup]
  | cons e rest ih =>
    by_cases h : k = e.1
    · subst h
      rw [List.filter_cons_of_neg (by simp), ih, lookup_cons]
      split <;> rfl
    · have hc : compare k e.1 ≠ .eq := fun hc => h (Std.LawfulEqOrd.eq_of_compare hc)
      rw [List.filter_cons_of_pos (by simpa using hc)]
      simp only [lookup_cons, ih]
      by_cases h' : k' = e.1
      · subst h'; simp [Ne.symm h]
      · simp [h']

omit [Std.TransOrd α] in
@[simp] theorem get?_erase (m : SortedMap α β) (k k' : α) :
    (m.erase k).get? k' = if k' = k then none else m.get? k' :=
  lookup_filter_ne k k' m.entries

end lookups

omit [Std.TransOrd α] in
theorem lookup_eq_some_iff {es : List (α × β)}
    (h : es.Pairwise (fun a b => compare a.1 b.1 = .lt)) {k : α} {v : β} :
    lookup k es = some v ↔ (k, v) ∈ es := by
  induction es with
  | nil => simp [lookup]
  | cons e rest ih =>
    have ⟨he, hr⟩ := List.pairwise_cons.1 h
    rw [lookup, List.mem_cons]
    by_cases hk : compare k e.1 = .eq
    · rw [if_pos hk, Option.some.injEq]
      have hk := Std.LawfulEqOrd.eq_of_compare hk
      subst hk
      constructor
      · rintro rfl; exact .inl rfl
      · rintro (h | h)
        · rw [← h]
        · have := he _ h; simp at this
    · rw [if_neg hk, ih hr]
      exact ⟨.inr, fun h => h.resolve_left (by rintro rfl; simp at hk)⟩

omit [Std.TransOrd α] in
theorem get?_eq_some_iff (m : SortedMap α β) {k : α} {v : β} :
    m.get? k = some v ↔ (k, v) ∈ m.entries :=
  lookup_eq_some_iff m.sorted

theorem entries_ext {xs ys : List (α × β)}
    (hx : xs.Pairwise (fun a b => compare a.1 b.1 = .lt))
    (hy : ys.Pairwise (fun a b => compare a.1 b.1 = .lt))
    (h : ∀ e, e ∈ xs ↔ e ∈ ys) : xs = ys := by
  induction xs generalizing ys with
  | nil =>
    cases ys with
    | nil => rfl
    | cons y _ => simpa using (h y).2
  | cons x xs ih =>
    cases ys with
    | nil => simpa using (h x).1
    | cons y ys =>
      have ⟨hx1, hx2⟩ := List.pairwise_cons.1 hx
      have ⟨hy1, hy2⟩ := List.pairwise_cons.1 hy
      have hxy : x = y := by
        rcases List.mem_cons.1 ((h x).1 (by simp)) with e | hm
        · exact e
        · rcases List.mem_cons.1 ((h y).2 (by simp)) with e | hm'
          · exact e.symm
          · have h1 := hx1 y hm'
            have h2 := hy1 x hm
            rw [Std.OrientedCmp.gt_of_lt h1] at h2
            cases h2
      subst hxy
      have irrefl (e : α × β) : compare e.1 e.1 ≠ .lt := by simp [Std.ReflCmp.compare_self]
      have key : ∀ e, e ∈ xs ↔ e ∈ ys := fun e => by
        have := h e
        simp only [List.mem_cons] at this
        constructor <;> intro hm
        · rcases this.1 (.inr hm) with rfl | hm'
          · exact absurd (hx1 _ hm) (irrefl _)
          · exact hm'
        · rcases this.2 (.inr hm) with rfl | hm'
          · exact absurd (hy1 _ hm) (irrefl _)
          · exact hm'
      rw [ih hx2 hy2 key]

/-- Maps are determined by their look-ups. -/
@[ext] theorem ext {m n : SortedMap α β} (h : ∀ k, m.get? k = n.get? k) : m = n := by
  have : m.entries = n.entries := entries_ext m.sorted n.sorted fun (k, v) => by
    rw [← m.get?_eq_some_iff, ← n.get?_eq_some_iff, h]
  cases m; cases n; simp_all

end SortedMap
end LedgerNode
