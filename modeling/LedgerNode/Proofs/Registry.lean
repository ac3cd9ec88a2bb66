import LedgerNode.Proofs.SortedMap
import LedgerNode.Proofs.Text.Encoding
import LedgerNode.Registry

/-!
Merging nodes into a registry.  A registry is filed by names and read by addresses.  A node that is
filed under a name which nobody has adds its address to the listing and leaves the rest of it alone.
The name that a node falls back on is not always such a name; then another node is lost.
-/
namespace LedgerNode.Registry

/-- What an entry tells under its name. -/
def Entry.info (e : Entry) (name : String) : PeerInfo := ⟨name, e.isBootstrap, e.isActive⟩

theorem get?_nodes (t : Table) (a : PeerAddress) :
    (nodes t).get? a =
      ((t.entries.filter fun e => e.2.address = a).getLast?).map fun e => e.2.info e.1 := by
  rw [nodes, SortedMap.get?_ofList, List.filter_map, List.getLast?_map, Option.map_map]
  simp [Function.comp_def, Entry.info, eq_comm]

theorem knows_iff (t : Table) (a : PeerAddress) :
    knows t a = true ↔ ∃ e ∈ t.entries, e.2.address = a := by
  simp [knows, SortedMap.values]

/-- The listing has the addresses that the registry knows. -/
theorem mem_nodes (t : Table) (a : PeerAddress) : a ∈ nodes t ↔ knows t a = true := by
  rw [SortedMap.mem_iff, get?_nodes, knows_iff]
  simp [Option.isSome_iff_ne_none]

theorem knows_of_insert {t : Table} {name : String} {e : Entry} {a : PeerAddress}
    (h : knows (t.insert name e) a = true) : a = e.address ∨ knows t a = true := by
  obtain ⟨x, hx, rfl⟩ := (knows_iff _ a).mp h
  rcases SortedMap.mem_insertEntry hx with rfl | hold
  · exact Or.inl rfl
  · exact Or.inr ((knows_iff t _).mpr ⟨x, hold, rfl⟩)

theorem get?_nodes_insert {t : Table} {name : String} {e : Entry}
    (hknows : knows t e.address = false) :
    (nodes (t.insert name e)).get? e.address = some (e.info name) := by
  have hin : (name, e) ∈ (t.insert name e).entries := by
    rw [← SortedMap.get?_eq_some_iff, SortedMap.get?_insert, if_pos rfl]
  have honly : ∀ x ∈ (t.insert name e).entries, x.2.address = e.address → x = (name, e) := by
    intro x hx hsame
    refine (SortedMap.mem_insertEntry hx).resolve_right fun hold => ?_
    have hknown := (knows_iff t e.address).mpr ⟨x, hold, hsame⟩
    rw [hknows] at hknown
    cases hknown
  rw [get?_nodes]
  cases hlast : ((t.insert name e).entries.filter fun x => x.2.address = e.address).getLast? with
  | none =>
    have hnone := List.filter_eq_nil_iff.mp (List.getLast?_eq_none_iff.mp hlast) _ hin
    simp at hnone
  | some x =>
    obtain ⟨hx, hsame⟩ := List.mem_filter.mp (List.mem_of_getLast? hlast)
    rw [honly x hx (by simpa using hsame)]
    rfl

/-- Filing a new address under a free name is adding it to the listing. -/
theorem nodes_insert {t : Table} {name : String} {e : Entry} (hname : t.contains name = false)
    (hknows : knows t e.address = false) :
    nodes (t.insert name e) = (nodes t).insert e.address (e.info name) := by
  refine SortedMap.ext fun a => ?_
  rw [SortedMap.get?_insert]
  by_cases h : a = e.address
  · rw [if_pos h, h, get?_nodes_insert hknows]
  · have hother : decide (e.address = a) = false := by simp [Ne.symm h]
    have hfree : SortedMap.lookup name t.entries = none := by
      simpa [SortedMap.contains, SortedMap.get?] using hname
    have hfilter : (t.insert name e).entries.filter (fun e => e.2.address = a) =
        t.entries.filter fun e => e.2.address = a :=
      SortedMap.filter_insertEntry _ hother hfree
    rw [if_neg h, get?_nodes, get?_nodes, hfilter]

/-- A node is known, or is filed under a name that is its own or its address. -/
theorem add_cases (t : Table) (a : PeerAddress) (info : PeerInfo) :
    (knows t a = true ∧ add t a info = (false, t)) ∨
    (knows t a = false ∧ add t a info =
      (true, t.insert (nameFor t a info) ⟨a, info.isBootstrap, info.isActive⟩)) := by
  cases h : knows t a <;> simp [add, h]

theorem addAll_cons (t : Table) (a : PeerAddress) (info : PeerInfo)
    (rest : List (PeerAddress × PeerInfo)) :
    addAll t ((a, info) :: rest) =
      ((if (add t a info).1 then 1 else 0) + (addAll (add t a info).2 rest).1,
        (addAll (add t a info).2 rest).2) := rfl

/-- Every node of the list that is new finds a name that nobody has: its own, or else the text of
its address. -/
def findNames (t : Table) : List (PeerAddress × PeerInfo) → Bool
  | [] => true
  | (a, info) :: rest =>
    (knows t a || !t.contains (nameFor t a info)) && findNames (add t a info).2 rest

/-- What merging is to do to a listing: nothing in it changes, the addresses are added and no
others, and it grows by the count. -/
structure Extends (before : Peers) (ns : List (PeerAddress × PeerInfo)) (count : Nat)
    (after : Peers) : Prop where
  keeps {a : PeerAddress} {info : PeerInfo} : before.get? a = some info → after.get? a = some info
  mem_iff (a : PeerAddress) : a ∈ after ↔ a ∈ before ∨ ∃ info, (a, info) ∈ ns
  size_eq : after.size = before.size + count

theorem extends_nil (listing : Peers) : Extends listing [] 0 listing :=
  ⟨id, fun a => by simp, rfl⟩

theorem Extends.cons_known {before after : Peers} {ns : List (PeerAddress × PeerInfo)}
    {count : Nat} {a : PeerAddress} {info : PeerInfo} (h : Extends before ns count after)
    (ha : a ∈ before) : Extends before ((a, info) :: ns) count after where
  keeps := h.keeps
  mem_iff b := by
    rw [h.mem_iff b]
    by_cases hb : b = a <;> simp [hb, ha]
  size_eq := h.size_eq

theorem Extends.cons_new {before after : Peers} {ns : List (PeerAddress × PeerInfo)}
    {count : Nat} {a : PeerAddress} {info filed : PeerInfo}
    (h : Extends (before.insert a filed) ns count after) (ha : a ∉ before) :
    Extends before ((a, info) :: ns) (1 + count) after where
  keeps {b told} hb := by
    have hne : b ≠ a := by
      rintro rfl
      exact ha (by rw [SortedMap.mem_iff, hb]; rfl)
    exact h.keeps (by rw [SortedMap.get?_insert, if_neg hne, hb])
  mem_iff b := by
    rw [h.mem_iff b, SortedMap.mem_insert]
    by_cases hb : b = a <;> simp [hb]
  size_eq := by
    have hnew : before.contains a = false := by simpa [SortedMap.mem_iff, SortedMap.contains] using ha
    rw [h.size_eq, SortedMap.size_insert, hnew]
    simp [Nat.add_assoc]

theorem extends_addAll {t : Table} {ns : List (PeerAddress × PeerInfo)}
    (h : findNames t ns = true) :
    Extends (nodes t) ns (addAll t ns).1 (nodes (addAll t ns).2) := by
  induction ns generalizing t with
  | nil => exact extends_nil _
  | cons n ns ih =>
    obtain ⟨a, info⟩ := n
    obtain ⟨hname, hrest⟩ := (Bool.and_eq_true _ _).mp h
    have hih := ih hrest
    rw [addAll_cons]
    rcases add_cases t a info with ⟨hknows, hadd⟩ | ⟨hknows, hadd⟩
    · rw [hadd] at hih ⊢
      simp only [Bool.false_eq_true, if_false, Nat.zero_add]
      exact hih.cons_known ((mem_nodes t a).mpr hknows)
    · have hfree : t.contains (nameFor t a info) = false := by simpa [hknows] using hname
      rw [hadd, nodes_insert hfree hknows] at hih
      rw [hadd]
      exact hih.cons_new (by rw [mem_nodes, hknows]; decide)

/-- A registry grows by the count as long as names are found, and falls short of it as soon as one
is taken. -/
theorem size_addAll (t : Table) (ns : List (PeerAddress × PeerInfo)) :
    (addAll t ns).2.size ≤ t.size + (addAll t ns).1 ∧
      ((addAll t ns).2.size = t.size + (addAll t ns).1 ↔ findNames t ns = true) := by
  induction ns generalizing t with
  | nil => simp [addAll, findNames]
  | cons n ns ih =>
    obtain ⟨a, info⟩ := n
    rw [addAll_cons, findNames]
    rcases add_cases t a info with ⟨hknows, hadd⟩ | ⟨hknows, hadd⟩
    · simpa [hadd, hknows] using ih t
    · obtain ⟨hle, hiff⟩ := ih (t.insert (nameFor t a info) ⟨a, info.isBootstrap, info.isActive⟩)
      rw [SortedMap.size_insert] at hle hiff
      rw [hadd, hknows]
      cases hname : t.contains (nameFor t a info) with
      | false =>
        simp only [hname, Bool.false_eq_true, if_false] at hle hiff
        simp [← hiff, ← Nat.add_assoc]
        omega
      | true =>
        simp [hname] at hle ⊢
        omega

/-- No address comes into a registry but those of the list. -/
theorem knows_of_addAll {t : Table} {ns : List (PeerAddress × PeerInfo)} {a : PeerAddress}
    (h : knows (addAll t ns).2 a = true) : knows t a = true ∨ ∃ info, (a, info) ∈ ns := by
  induction ns generalizing t with
  | nil => exact Or.inl h
  | cons n ns ih =>
    obtain ⟨b, told⟩ := n
    rw [addAll_cons] at h
    rcases ih h with hfirst | ⟨info, hin⟩
    · rcases add_cases t b told with ⟨-, hadd⟩ | ⟨-, hadd⟩
      · rw [hadd] at hfirst
        exact Or.inl hfirst
      · rw [hadd] at hfirst
        rcases knows_of_insert hfirst with rfl | hold
        · exact Or.inr ⟨told, List.mem_cons_self⟩
        · exact Or.inl hold
    · exact Or.inr ⟨info, List.mem_cons_of_mem _ hin⟩

/-- Nodes whose addresses are known are not filed again. -/
theorem addAll_of_known {t : Table} {ns : List (PeerAddress × PeerInfo)}
    (h : ∀ a info, (a, info) ∈ ns → knows t a = true) : addAll t ns = (0, t) := by
  induction ns with
  | nil => rfl
  | cons n ns ih =>
    obtain ⟨a, info⟩ := n
    have hadd : add t a info = (false, t) := by simp [add, h a info (by simp)]
    have hrest := ih fun b told hb => h b told (List.mem_cons_of_mem _ hb)
    rw [addAll_cons, hadd, hrest]
    rfl

theorem addAll_eq_self {t : Table} {ns : List (PeerAddress × PeerInfo)}
    (h : (addAll t ns).1 = 0) : (addAll t ns).2 = t := by
  induction ns generalizing t with
  | nil => rfl
  | cons n ns ih =>
    obtain ⟨a, info⟩ := n
    rw [addAll_cons] at h ⊢
    rcases add_cases t a info with ⟨-, hadd⟩ | ⟨-, hadd⟩
    · rw [hadd] at h ⊢
      exact ih (by simpa using h)
    · simp [hadd] at h

/-- What is written without an error is there as a whole. -/
theorem overwrite_eq_ok {f f' : FileEntry} {limit : SizeLimit} {content : Bytes}
    (h : f.overwrite limit content = (.ok (), f')) : f' = .file content := by
  have hwrite : (if limit.admits content.length then .ok () else .error .tooLarge,
      FileEntry.file (limit.cut content)) = ((.ok () : Except FileError Unit), f') := by
    cases f with
    | directory => cases h
    | absent => exact h
    | file old => exact h
  by_cases hfits : limit.admits content.length = true
  · rw [if_pos hfits, SizeLimit.cut_eq_self hfits] at hwrite
    cases hwrite
    rfl
  · rw [if_neg hfits] at hwrite
    cases hwrite

/-- A merge that succeeds leaves all its nodes in the file, provided that what is written is read
back. -/
theorem readTable_of_merge {f f' : FileEntry} {limit : SizeLimit} {t : Table}
    {ns : List (PeerAddress × PeerInfo)} {count : Nat} (hread : readTable f = .ok t)
    (hmerge : merge limit ns f = (.ok count, f'))
    (hwritten : parse (render (addAll t ns).2) = .ok (addAll t ns).2) :
    count = (addAll t ns).1 ∧ readTable f' = .ok (addAll t ns).2 := by
  rcases hall : addAll t ns with ⟨added, t'⟩
  rw [hall] at hwritten
  simp only [merge, hread, hall] at hmerge
  cases added with
  | zero =>
    cases hmerge
    have hself : (addAll t ns).2 = t := addAll_eq_self (by rw [hall])
    rw [hall] at hself
    exact ⟨rfl, by rw [hself]; exact hread⟩
  | succ added =>
    rcases hwrite : f.overwrite limit (Text.utf8 (render t')) with ⟨e | ⟨⟩, g⟩
    · simp [hwrite] at hmerge
    · simp only [hwrite] at hmerge
      cases hmerge
      rw [overwrite_eq_ok hwrite]
      refine ⟨rfl, ?_⟩
      simp only [readTable, FileEntry.readText, FileEntry.read, bind, Except.bind,
        Text.ofUtf8?_utf8, hwritten]

/-- A merge that succeeds brings in no address but those it was given, and the file grows by the
count exactly where every new node finds a free name.  There the listing keeps what it had, has
every address it was given, and grows by the count; and merging once more changes nothing. -/
theorem merge_extends {f f' : FileEntry} {limit : SizeLimit} {t : Table}
    {ns : List (PeerAddress × PeerInfo)} {count : Nat} (hread : readTable f = .ok t)
    (hmerge : merge limit ns f = (.ok count, f'))
    (hwritten : parse (render (addAll t ns).2) = .ok (addAll t ns).2) :
    ∃ before after t', list f = .ok before ∧ list f' = .ok after ∧ readTable f' = .ok t' ∧
      (∀ a, a ∈ after → a ∈ before ∨ ∃ info, (a, info) ∈ ns) ∧
      (t'.size = t.size + count ↔ findNames t ns = true) ∧
      (findNames t ns = true →
        Extends before ns count after ∧ merge limit ns f' = (.ok 0, f')) := by
  obtain ⟨rfl, hread'⟩ := readTable_of_merge hread hmerge hwritten
  refine ⟨nodes t, nodes (addAll t ns).2, _, by rw [list, hread]; rfl, by rw [list, hread']; rfl,
    hread', fun a ha => ?_, (size_addAll t ns).2, fun hnames => ?_⟩
  · rw [mem_nodes] at ha ⊢
    exact knows_of_addAll ha
  · have hextends := extends_addAll hnames
    have hknown : ∀ a info, (a, info) ∈ ns → knows (addAll t ns).2 a = true := by
      intro a info hin
      rw [← mem_nodes, hextends.mem_iff]
      exact Or.inr ⟨info, hin⟩
    refine ⟨hextends, ?_⟩
    simp only [merge, hread', addAll_of_known hknown]

/-- A registry that files one node under the address of another. -/
def sampleFile : FileEntry := .file (Text.utf8 "Nodes.\"g:2\"=[\"h\",1]")

/-- A node whose name is taken. -/
def namesake : PeerAddress × PeerInfo := (⟨"k", 3⟩, ⟨"g:2", false, true⟩)

/-- What the file files. -/
def sampleTable : Table := .ofList [("g:2", ⟨⟨"h", 1⟩, false, false⟩)]

theorem merge_extends_namesake :
    ∃ before after, list sampleFile = .ok before ∧
      list (merge none [namesake] sampleFile).2 = .ok after ∧ Extends before [namesake] 1 after ∧
      merge none [namesake] (merge none [namesake] sampleFile).2 =
        (.ok 0, (merge none [namesake] sampleFile).2) := by
  have hread : readTable sampleFile = .ok sampleTable := by decide +kernel
  have hadded : (merge none [namesake] sampleFile).1 = .ok 1 := by decide +kernel
  have hwritten : parse (render (addAll sampleTable [namesake]).2) =
      .ok (addAll sampleTable [namesake]).2 := by
    decide +kernel
  have hnames : findNames sampleTable [namesake] = true := by decide +kernel
  rcases hmerge : merge none [namesake] sampleFile with ⟨r, f'⟩
  rw [hmerge] at hadded
  cases hadded
  obtain ⟨before, after, -, hbefore, hafter, -, -, -, hextends⟩ :=
    merge_extends hread hmerge hwritten
  exact ⟨before, after, hbefore, hafter, hextends hnames⟩

/-- A node without a name, whose address is the name of another. -/
def unnamed : PeerAddress × PeerInfo := (⟨"g", 2⟩, ⟨"", false, true⟩)

/-- It takes the place of the other one, and still counts as one more. -/
theorem merge_loses_unnamed :
    list sampleFile = .ok (.ofList [(⟨"h", 1⟩, ⟨"g:2", false, false⟩)]) ∧
      (merge none [unnamed] sampleFile).1 = .ok 1 ∧
      list (merge none [unnamed] sampleFile).2 =
        .ok (.ofList [(⟨"g", 2⟩, ⟨"g:2", false, true⟩)]) := by
  decide +kernel

end LedgerNode.Registry
