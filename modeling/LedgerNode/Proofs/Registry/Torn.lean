import LedgerNode.Proofs.Registry

/-!
Merging where the disk has no room.  A registry file is written anew from its beginning, so a write
that fails has taken the old listing with it already, and leaves the first bytes of the new text.  What
they list may be less, or something else, or nothing that can be read.
-/
namespace LedgerNode.Registry

/-- Writing a file anew leaves the whole content, or as many bytes as fit. -/
theorem overwrite_file_cases (limit : SizeLimit) (content old : Bytes) :
    (limit.admits content.length = true ∧
      (FileEntry.file old).overwrite limit content = (.ok (), .file content)) ∨
    ∃ n, limit = some n ∧ n < content.length ∧
      (FileEntry.file old).overwrite limit content =
        (.error .tooLarge, .file (content.take n)) := by
  cases hfits : limit.admits content.length with
  | true =>
    left
    simp [FileEntry.overwrite, hfits, SizeLimit.cut_eq_self hfits]
  | false =>
    right
    cases limit with
    | none => cases hfits
    | some n =>
      have hn : n < content.length := by simpa [SizeLimit.admits] using hfits
      exact ⟨n, rfl, hn, by simp [FileEntry.overwrite, hfits, SizeLimit.cut]⟩

theorem file_of_readTable {f : FileEntry} {t : Table} (h : readTable f = .ok t) :
    ∃ old, f = .file old := by
  cases f with
  | file old => exact ⟨old, rfl⟩
  | absent => cases h
  | directory => cases h

/-- The text that merging nodes into a registry is to leave in its file. -/
def mergedText (t : Table) (ns : List (PeerAddress × PeerInfo)) : Bytes :=
  Text.utf8 (render (addAll t ns).2)

/-- A registry that can be read, and nodes: none of them is new, or the file becomes the new text, or
the first bytes of it. -/
theorem merge_cases {f : FileEntry} {t : Table} (h : readTable f = .ok t) (limit : SizeLimit)
    (ns : List (PeerAddress × PeerInfo)) :
    ((addAll t ns).1 = 0 ∧ merge limit ns f = (.ok 0, f)) ∨
    ((addAll t ns).1 ≠ 0 ∧ limit.admits (mergedText t ns).length = true ∧
      merge limit ns f = (.ok (addAll t ns).1, .file (mergedText t ns))) ∨
    ((addAll t ns).1 ≠ 0 ∧ ∃ n, limit = some n ∧ n < (mergedText t ns).length ∧
      merge limit ns f = (.error (.write .tooLarge), .file ((mergedText t ns).take n))) := by
  obtain ⟨old, rfl⟩ := file_of_readTable h
  rw [mergedText]
  rcases hall : addAll t ns with ⟨added, t'⟩
  cases added with
  | zero =>
    left
    simp [merge, h, hall]
  | succ added =>
    right
    rcases overwrite_file_cases limit (Text.utf8 (render t')) old with ⟨hfits, hwrite⟩ |
      ⟨n, hlimit, hn, hwrite⟩
    · left
      simp [merge, h, hall, hwrite, hfits]
    · right
      refine ⟨Nat.succ_ne_zero added, n, hlimit, hn, ?_⟩
      simp [merge, h, hall, hwrite]

/-- A registry with a node in it keeps some, and gets one with the first that is new. -/
theorem entries_addAll_ne_nil {t : Table} {ns : List (PeerAddress × PeerInfo)}
    (h : t.entries ≠ [] ∨ (addAll t ns).1 ≠ 0) : (addAll t ns).2.entries ≠ [] := by
  induction ns generalizing t with
  | nil => exact h.resolve_right (fun h => h rfl)
  | cons n ns ih =>
    obtain ⟨a, info⟩ := n
    rw [addAll_cons] at h ⊢
    rcases add_cases t a info with ⟨-, hadd⟩ | ⟨-, hadd⟩
    · rw [hadd] at h ⊢
      exact ih (by simpa using h)
    · rw [hadd]
      have hin : (nameFor t a info, ⟨a, info.isBootstrap, info.isActive⟩) ∈
          (t.insert (nameFor t a info) ⟨a, info.isBootstrap, info.isActive⟩).entries := by
        rw [← SortedMap.get?_eq_some_iff, SortedMap.get?_insert, if_pos rfl]
      exact ih (Or.inl (List.ne_nil_of_mem hin))

theorem length_mergedText_pos {t : Table} {ns : List (PeerAddress × PeerInfo)}
    (h : (addAll t ns).1 ≠ 0) : 0 < (mergedText t ns).length := by
  obtain ⟨⟨name, e⟩, rest, hentries⟩ :=
    List.exists_cons_of_ne_nil (entries_addAll_ne_nil (Or.inr h))
  obtain ⟨tail, htail⟩ : ∃ tail, renderEntry name e = "[Nodes." ++ tail := by
    -- its equation is slow to make, for the literals in it
    delta renderEntry
    repeat rw [String.append_assoc]
    exact ⟨_, rfl⟩
  simp only [mergedText, render, hentries, List.map_cons, htail, String.intercalate_cons_append,
    Text.utf8_append, List.length_append]
  exact Nat.add_pos_left (by decide) _

/-- Merges in order, each with its own room on the disk; what they leave in the file. -/
def mergeRun (f : FileEntry) (ms : List (SizeLimit × List (PeerAddress × PeerInfo))) : FileEntry :=
  ms.foldl (fun f m => (merge m.1 m.2 f).2) f

/-- A registry that cannot be read is never written again. -/
theorem mergeRun_of_unreadable {f : FileEntry} {e : RegistryError} (h : list f = .error e)
    (ms : List (SizeLimit × List (PeerAddress × PeerInfo))) : mergeRun f ms = f := by
  have hread : ∃ e, readTable f = .error e := by
    rw [list] at h
    cases hread : readTable f with
    | error e => exact ⟨e, rfl⟩
    | ok t =>
      rw [hread] at h
      cases h
  obtain ⟨e, hread⟩ := hread
  induction ms with
  | nil => rfl
  | cons m ms ih =>
    have hmerge : merge m.1 m.2 f = (.error e, f) := by simp [merge, hread]
    rw [mergeRun, List.foldl_cons, hmerge]
    exact ih

/-- What a merge that fails leaves in the file. -/
theorem merge_eq_error {f : FileEntry} {t : Table} (hread : readTable f = .ok t)
    (ns : List (PeerAddress × PeerInfo)) (limit : SizeLimit) (e : RegistryError) (f' : FileEntry) :
    merge limit ns f = (.error e, f') ↔
      (addAll t ns).1 ≠ 0 ∧ ∃ n, limit = some n ∧ n < (mergedText t ns).length ∧
        e = .write .tooLarge ∧ f' = .file ((mergedText t ns).take n) := by
  rcases merge_cases hread limit ns with ⟨hnone, hmerge⟩ | ⟨hnew, hfits, hmerge⟩ |
    ⟨hnew, n, rfl, hn, hmerge⟩
  · simp [hmerge, hnone]
  · rw [hmerge]
    refine ⟨nofun, ?_⟩
    rintro ⟨-, n, rfl, hn, -, -⟩
    exact absurd (by simpa [SizeLimit.admits] using hfits) (Nat.not_le_of_gt hn)
  · rw [hmerge]
    constructor
    · intro h
      cases h
      exact ⟨hnew, n, rfl, hn, rfl, rfl⟩
    · rintro ⟨-, m, hm, -, rfl, rfl⟩
      cases hm
      rfl

/-- Merging nodes into a registry that can be read fails exactly where one of them is new and the new
text does not fit.  Whatever was listed before, the file then holds as much of the new text as fits,
so the listing outlives the failure exactly where this much of the new text happens to list the same;
where nothing fits, nothing is listed any more.  Where what is left cannot be read, no later merge
changes that. -/
theorem merge_eq_error_iff {f : FileEntry} {before : Peers} (hopen : list f = .ok before)
    (ns : List (PeerAddress × PeerInfo)) :
    ∃ t, readTable f = .ok t ∧ nodes t = before ∧
      (∀ limit e f', merge limit ns f = (.error e, f') ↔
        (addAll t ns).1 ≠ 0 ∧ ∃ n, limit = some n ∧ n < (mergedText t ns).length ∧
          e = .write .tooLarge ∧ f' = .file ((mergedText t ns).take n)) ∧
      (∀ limit, (∀ e f', merge limit ns f = (.error e, f') → list f' = .ok before) ↔
        (addAll t ns).1 = 0 ∨ ∀ n, limit = some n → n < (mergedText t ns).length →
          list (.file ((mergedText t ns).take n)) = .ok before) ∧
      ((addAll t ns).1 ≠ 0 → ∃ f', merge (some 0) ns f = (.error (.write .tooLarge), f') ∧
        list f' = .ok .empty) ∧
      ∀ limit e f', merge limit ns f = (.error e, f') → ∀ e', list f' = .error e' →
        ∀ ms, mergeRun f' ms = f' := by
  cases hread : readTable f with
  | error e =>
    rw [list, hread] at hopen
    cases hopen
  | ok t =>
    rw [list, hread] at hopen
    cases hopen
    have herror := merge_eq_error hread ns
    refine ⟨t, rfl, rfl, herror, fun limit => ⟨fun hkept => ?_, ?_⟩, fun hnew => ?_,
      fun _ _ _ _ e' he' ms => mergeRun_of_unreadable he' ms⟩
    · refine or_iff_not_imp_left.mpr fun hnew n hlimit hn => ?_
      exact hkept _ _ ((herror limit _ _).mpr ⟨hnew, n, hlimit, hn, rfl, rfl⟩)
    · intro hkept e f' hmerge
      obtain ⟨hnew, n, hlimit, hn, -, rfl⟩ := (herror limit e f').mp hmerge
      exact hkept.resolve_left hnew n hlimit hn
    · have hmerge := (herror (some 0) _ _).mpr ⟨hnew, 0, rfl, length_mergedText_pos hnew, rfl, rfl⟩
      exact ⟨_, hmerge, by rw [List.take_zero]; decide +kernel⟩

/-- A registry of one node. -/
def tornFile : FileEntry := .file (Text.utf8 "Nodes.a=[\"h\",8081]")

/-- A node to be filed behind it. -/
def newcomer : PeerAddress × PeerInfo := (⟨"k", 3⟩, ⟨"b", false, true⟩)

theorem merge_eq_error_iff_newcomer :
    ∃ f', merge (some 0) [newcomer] tornFile = (.error (.write .tooLarge), f') ∧
      list f' = .ok .empty := by
  have hopen : list tornFile = .ok (.ofList [(⟨"h", 8081⟩, ⟨"a", false, false⟩)]) := by
    decide +kernel
  obtain ⟨t, hread, -, -, -, hnone, -⟩ := merge_eq_error_iff hopen [newcomer]
  refine hnone fun h => ?_
  have hmerge : (merge none [newcomer] tornFile).1 = .ok 1 := by decide +kernel
  rcases merge_cases hread none [newcomer] with ⟨-, h0⟩ | ⟨hnew, -, -⟩ | ⟨hnew, -⟩
  · rw [h0] at hmerge
    cases hmerge
  · exact hnew h
  · exact hnew h

/-- With no room the listing is lost; with some of it, the node that was listed is not, and one is that
nobody ever named; with a little less, nothing can be listed. -/
theorem merge_torn_loses :
    list tornFile = .ok (.ofList [(⟨"h", 8081⟩, ⟨"a", false, false⟩)]) ∧
      (∀ n ∈ [0, 21, 33], (merge (some n) [newcomer] tornFile).1 = .error (.write .tooLarge)) ∧
      list (merge (some 0) [newcomer] tornFile).2 = .ok .empty ∧
      list (merge (some 21) [newcomer] tornFile).2 = .error (.parse .malformed) ∧
      list (merge (some 33) [newcomer] tornFile).2 =
        .ok (.ofList [(⟨"h", 80⟩, ⟨"a", false, false⟩)]) := by
  decide +kernel

end LedgerNode.Registry
