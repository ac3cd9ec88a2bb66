import Mathlib.Algebra.BigOperators.Group.List.Basic
import Mathlib.Algebra.GroupWithZero.Nat
import Mathlib.Data.List.Induction
import LedgerNode.SortedMap

/-!
Maps as they are built entry by entry: a map is that of its own entries, and an insertion changes a
sum over the entries by the new value and the old one.
-/
namespace LedgerNode.SortedMap

variable {α β : Type} [Ord α] [Std.TransOrd α]

/-- An entry behind all others goes to the end. -/
theorem insertEntry_of_lt {k : α} {v : β} {es : List (α × β)}
    (h : ∀ e ∈ es, compare e.1 k = .lt) : insertEntry k v es = es ++ [(k, v)] := by
  induction es with
  | nil => rfl
  | cons e es ih =>
    have hgt : compare k e.1 = .gt := Std.OrientedCmp.gt_of_lt (h e (by simp))
    rw [insertEntry, hgt]
    simp [ih fun x hx => h x (by simp [hx])]

variable [Std.LawfulEqOrd α]

theorem entries_foldl_insert (es : List (α × β)) (m : SortedMap α β)
    (h : (m.entries ++ es).Pairwise fun a b => compare a.1 b.1 = .lt) :
    (es.foldl (fun m e => m.insert e.1 e.2) m).entries = m.entries ++ es := by
  induction es generalizing m with
  | nil => simp
  | cons e es ih =>
    have hlt : ∀ x ∈ m.entries, compare x.1 e.1 = .lt := fun x hx =>
      (List.pairwise_append.mp h).2.2 x hx e (by simp)
    have hinsert : (m.insert e.1 e.2).entries = m.entries ++ [e] := insertEntry_of_lt hlt
    rw [List.foldl_cons, ih _ (by simpa [hinsert] using h), hinsert]
    simp

@[simp] theorem ofList_entries (m : SortedMap α β) : ofList m.entries = m := by
  have h : (ofList m.entries).entries = m.entries := by
    simpa [ofList] using entries_foldl_insert m.entries empty (by simpa using m.sorted)
  cases hm : ofList m.entries
  cases m
  simp_all

/-- A key before all others has no entry. -/
theorem lookup_eq_none {k : α} {e : α × β} {es : List (α × β)} (hlt : compare k e.1 = .lt)
    (h : (e :: es).Pairwise fun a b => compare a.1 b.1 = .lt) : lookup k (e :: es) = none := by
  by_contra hne
  obtain ⟨v, hv⟩ := Option.ne_none_iff_exists'.mp hne
  have hmem := (lookup_eq_some_iff h).mp hv
  have hirrefl : compare k k ≠ .lt := by simp [Std.ReflCmp.compare_self]
  rcases List.mem_cons.mp hmem with rfl | hmem
  · exact hirrefl hlt
  · exact hirrefl (Std.TransCmp.lt_trans hlt ((List.pairwise_cons.mp h).1 _ hmem))

/-- Of an entry that is replaced, the old value leaves the sum and the new one enters it. -/
theorem sum_insertEntry (f : β → Nat) (k : α) (v : β) {es : List (α × β)}
    (h : es.Pairwise fun a b => compare a.1 b.1 = .lt) :
    ((insertEntry k v es).map fun e => f e.2).sum + ((lookup k es).map f).getD 0 =
      (es.map fun e => f e.2).sum + f v := by
  induction es with
  | nil => simp [insertEntry, lookup]
  | cons e es ih =>
    have hih := ih (List.pairwise_cons.mp h).2
    rw [insertEntry]
    cases hc : compare k e.1 with
    | lt =>
      rw [lookup_eq_none hc h]
      simp only [List.map_cons, List.sum_cons, Option.map_none, Option.getD_none]
      omega
    | eq =>
      simp only [lookup, hc, if_true, List.map_cons, List.sum_cons, Option.map_some,
        Option.getD_some]
      omega
    | gt =>
      simp only [lookup, hc, reduceCtorEq, if_false, List.map_cons, List.sum_cons]
      omega

omit [Std.TransOrd α] [Std.LawfulEqOrd α] in
/-- A new entry leaves alone whatever it does not belong to. -/
theorem filter_insertEntry (p : α × β → Bool) {k : α} {v : β} (hp : p (k, v) = false)
    {es : List (α × β)} (hk : lookup k es = none) :
    (insertEntry k v es).filter p = es.filter p := by
  induction es with
  | nil => simp [insertEntry, hp]
  | cons e es ih =>
    rw [insertEntry]
    cases hc : compare k e.1 with
    | lt => simp [hp]
    | eq => simp [lookup, hc] at hk
    | gt =>
      have hrest : lookup k es = none := by simpa [lookup, hc] using hk
      simp only [List.filter_cons, ih hrest]

/-- A new entry makes a map larger by one, and an old one that is replaced does not. -/
theorem size_insert (m : SortedMap α β) (k : α) (v : β) :
    (m.insert k v).size = m.size + if m.contains k then 0 else 1 := by
  have hsum := sum_insertEntry (fun _ => 1) k v m.sorted
  rw [List.map_const', List.map_const', List.sum_replicate, List.sum_replicate] at hsum
  rw [size, size, contains, get?, SortedMap.insert]
  cases h : lookup k m.entries with
  | none => simpa [h] using hsum
  | some w => simpa [h] using hsum

omit [Std.TransOrd α] in
/-- Each key has one entry. -/
theorem nodup_keys (m : SortedMap α β) : m.keys.Nodup := by
  rw [keys, List.Nodup, List.pairwise_map]
  refine m.sorted.imp fun {a b} hlt hsame => ?_
  rw [hsame] at hlt
  simp at hlt

omit [Std.TransOrd α] in
theorem length_filter_ne (k : α) {es : List (α × β)}
    (h : es.Pairwise fun a b => compare a.1 b.1 = .lt) :
    (es.filter fun e => compare k e.1 != .eq).length + (if (lookup k es).isSome then 1 else 0) =
      es.length := by
  induction es with
  | nil => rfl
  | cons e es ih =>
    obtain ⟨hfirst, hrest⟩ := List.pairwise_cons.mp h
    have ih := ih hrest
    by_cases hk : compare k e.1 = .eq
    · have habsent : lookup k es = none := by
        by_contra hne
        obtain ⟨v, hv⟩ := Option.ne_none_iff_exists'.mp hne
        have hlt := hfirst _ ((lookup_eq_some_iff hrest).mp hv)
        rw [Std.LawfulEqOrd.eq_of_compare hk] at hlt
        simp at hlt
      rw [habsent] at ih
      simpa [lookup, hk] using ih
    · rw [List.filter_cons_of_pos (by simpa using hk), lookup, if_neg hk, List.length_cons,
        List.length_cons, ← ih]
      omega

omit [Std.TransOrd α] in
/-- A map gets smaller by one with an entry that it loses. -/
theorem size_erase (m : SortedMap α β) (k : α) :
    (m.erase k).size + (if m.contains k then 1 else 0) = m.size :=
  length_filter_ne k m.sorted

omit [Std.TransOrd α] [Std.LawfulEqOrd α] in
theorem mem_iff (m : SortedMap α β) (k : α) : k ∈ m ↔ (m.get? k).isSome = true := Iff.rfl

omit [Std.TransOrd α] in
theorem mem_keys (m : SortedMap α β) (k : α) : k ∈ m.keys ↔ k ∈ m := by
  rw [mem_iff, Option.isSome_iff_exists, keys, List.mem_map]
  constructor
  · rintro ⟨⟨_, v⟩, he, rfl⟩
    exact ⟨v, m.get?_eq_some_iff.mpr he⟩
  · rintro ⟨v, hv⟩
    exact ⟨(k, v), m.get?_eq_some_iff.mp hv, rfl⟩

omit [Std.TransOrd α] in
theorem isEmpty_of_mem {m : SortedMap α β} {k : α} (h : k ∈ m) : m.isEmpty = false := by
  have hkeys : m.keys ≠ [] := List.ne_nil_of_mem ((m.mem_keys k).mpr h)
  simpa [isEmpty, keys] using hkeys

theorem mem_insert [DecidableEq α] (m : SortedMap α β) (k : α) (v : β) (k' : α) :
    k' ∈ m.insert k v ↔ k' = k ∨ k' ∈ m := by
  rw [mem_iff, mem_iff, get?_insert]
  by_cases h : k' = k <;> simp [h]

omit [Std.TransOrd α] in
theorem nodup_entries (m : SortedMap α β) : m.entries.Nodup :=
  (List.pairwise_map.mp m.nodup_keys).imp fun hne he => hne (congrArg Prod.fst he)

/-- A new key brings one entry with it. -/
theorem perm_insert [DecidableEq α] {m : SortedMap α β} {k : α} (v : β) (h : m.get? k = none) :
    (m.insert k v).entries.Perm ((k, v) :: m.entries) := by
  have hnew : (k, v) ∉ m.entries := fun hin => by
    rw [m.get?_eq_some_iff.mpr hin] at h
    cases h
  refine (List.perm_ext_iff_of_nodup (nodup_entries _)
    (List.nodup_cons.mpr ⟨hnew, m.nodup_entries⟩)).mpr fun ⟨k', w⟩ => ?_
  rw [← (m.insert k v).get?_eq_some_iff, get?_insert, List.mem_cons, ← m.get?_eq_some_iff]
  by_cases hk : k' = k
  · simp [hk, h, eq_comm]
  · simp [hk]

/-- Of several entries of one key the last counts. -/
theorem get?_ofList [DecidableEq α] (es : List (α × β)) (k : α) :
    (ofList es).get? k = ((es.filter fun e => k = e.1).getLast?).map (·.2) := by
  induction es using List.reverseRecOn with
  | nil => rfl
  | append_singleton es e ih =>
    have hlast : ofList (es ++ [e]) = (ofList es).insert e.1 e.2 := by simp [ofList]
    rw [hlast, get?_insert, List.filter_append]
    by_cases h : k = e.1
    · simp [h]
    · simp [h, ih]

end LedgerNode.SortedMap
