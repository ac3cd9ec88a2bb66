import LedgerNode.Proofs.Json.RoundTrip

/-!
Decoders that read back what a value was made from.  A record is read back field by field, as long
as no two of its fields have one name.
-/
namespace LedgerNode.Json

/-- The decoder reads `a` from the value, wherever the document comes from. -/
def Reads {α : Type} (dec : Decoder α) (v : Value) (a : α) : Prop :=
  v.HasWords ∧ ∀ o, dec o (.ofValue v) = .ok a

variable {α β : Type}

theorem Reads.map {dec : Decoder α} {v : Value} {a : α} (h : Reads dec v a) (f : α → β) :
    Reads (dec.map f) v (f a) :=
  ⟨h.1, fun o => by simp [Decoder.map, h.2 o, Except.map]⟩

theorem Reads.decode {dec : Decoder α} {v : Value} {a : α} (h : Reads dec v a) :
    decode dec v.render = .ok a :=
  decode_render h.1 (h.2 .text)

/-- Values that are read back have a text each. -/
theorem render_inj {dec : Decoder α} {write : α → Value} (h : ∀ a, Reads dec (write a) a) {a b : α} :
    (write a).render = (write b).render ↔ a = b := by
  refine ⟨fun hrender => ?_, fun hab => by rw [hab]⟩
  have hread := (h a).decode
  rw [hrender, (h b).decode] at hread
  exact (Except.ok.inj hread).symm

theorem reads_text (s : String) : Reads Decoder.text (.text s) s := ⟨trivial, fun _ => rfl⟩

theorem reads_boolean (b : Bool) : Reads Decoder.boolean (.boolean b) b := ⟨trivial, fun _ => rfl⟩

theorem reads_parsed {parse : String → Except ContentError α} {s : String} {a : α}
    (h : parse s = .ok a) : Reads (Decoder.parsed parse) (.text s) a :=
  ⟨trivial, fun o => by simp [Decoder.parsed, Doc.ofValue, Decoder.text, h, bind, Except.bind]⟩

theorem reads_naturalBelow {n bound : Nat} (hn : n < bound) (hb : bound ≤ UInt64.size) :
    Reads (Decoder.naturalBelow bound) (.ofNat n) n := by
  have hw : n < UInt64.size := Nat.lt_of_lt_of_le hn hb
  refine ⟨⟨Int.natCast_nonneg n, Int.ofNat_lt.mpr hw⟩, fun o => ?_⟩
  have hdoc : Doc.ofValue (.ofNat n) = .number (.natural n.toUInt64) := by
    have : Number.ofInt (Int.ofNat n) = .natural n.toUInt64 := by simp [Number.ofInt, hw]
    rw [Value.ofNat, Doc.ofValue]
    exact congrArg Doc.number this
  have hback : n.toUInt64.toNat = n := by
    simpa using Nat.mod_eq_of_lt hw
  simp [hdoc, Decoder.naturalBelow, hback, hn]

theorem reads_uint64 (n : UInt64) : Reads Decoder.uint64 (.ofUInt64 n) n := by
  have h := (reads_naturalBelow n.toNat_lt (Nat.le_refl _)).map Nat.toUInt64
  have hn : n.toNat.toUInt64 = n := by simp
  rwa [hn] at h

theorem reads_uint32 (n : UInt32) : Reads Decoder.uint32 (.ofNat n.toNat) n := by
  have hle : UInt32.size ≤ UInt64.size := by decide
  have h := (reads_naturalBelow n.toNat_lt hle).map Nat.toUInt32
  have hn : n.toNat.toUInt32 = n := by simp
  rwa [hn] at h

theorem reads_uint16 (n : UInt16) : Reads Decoder.uint16 (.ofNat n.toNat) n := by
  have hle : UInt16.size ≤ UInt64.size := by decide
  have h := (reads_naturalBelow n.toNat_lt hle).map Nat.toUInt16
  have hn : n.toNat.toUInt16 = n := by simp
  rwa [hn] at h

theorem reads_list {dec : Decoder α} {write : α → Value} (h : ∀ a, Reads dec (write a) a)
    (as : List α) : Reads (Decoder.list dec) (.array (as.map write)) as := by
  constructor
  · rw [Value.HasWords]
    induction as with
    | nil => trivial
    | cons a as ih => exact ⟨(h a).1, ih⟩
  · intro o
    rw [Doc.ofValue, Decoder.list]
    induction as with
    | nil => rfl
    | cons a as ih =>
      rw [List.map_cons, Items.ofValues, Decoder.items, (h a).2 o, ih]
      rfl

namespace Fields

/-- The members are those of the record, each under the name of its field. -/
inductive Written : {τ : Type} → Fields τ → List (String × Value) → τ → Prop
  | done : Written .done [] ()
  | field {α β : Type} {name : String} {dec : Decoder α} {missing : Option α} {rest : Fields β}
      {v : Value} {a : α} {ms : List (String × Value)} {b : β} (hv : Reads dec v a)
      (hname : name ∉ ms.map (·.1)) (hrest : Written rest ms b) :
      Written (.field name dec missing rest) ((name, v) :: ms) (a, b)

/-- Filling in the members in order leads from some slots to others. -/
inductive Fills (o : Origin) {τ : Type} (fs : Fields τ) :
    fs.Slots → List (String × Value) → fs.Slots → Prop
  | nil (s : fs.Slots) : Fills o fs s [] s
  | cons {s t u : fs.Slots} {k : String} {v : Value} {ms : List (String × Value)}
      (hfill : fs.fill o k (.ofValue v) s = .ok (some t)) (hrest : Fills o fs t ms u) :
      Fills o fs s ((k, v) :: ms) u

/-- The slots of a whole record. -/
def full : {τ : Type} → (fs : Fields τ) → τ → fs.Slots
  | _, .done, _ => ()
  | _, .field _ _ _ rest, (a, b) => (some a, rest.full b)

theorem close_full {τ : Type} (fs : Fields τ) (t : τ) : fs.close (fs.full t) = .ok t := by
  induction fs with
  | done => rfl
  | field name dec missing rest ih =>
    obtain ⟨a, b⟩ := t
    simp [full, close, ih, Except.map]

/-- Members of other names pass by a field. -/
theorem Fills.behind {o : Origin} {name : String} {dec : Decoder α} {missing : Option α}
    {rest : Fields β} {s t : rest.Slots} {ms : List (String × Value)} (h : Fills o rest s ms t)
    (hname : name ∉ ms.map (·.1)) (found : Option α) :
    Fills o (.field name dec missing rest) (found, s) ms (found, t) := by
  induction h with
  | nil s => exact .nil _
  | cons hfill _ ih =>
    simp only [List.map_cons, List.mem_cons, not_or] at hname
    refine .cons ?_ (ih hname.2)
    simp only [fill, Ne.symm hname.1, if_false, hfill]
    rfl

theorem Written.fills {τ : Type} {fs : Fields τ} {ms : List (String × Value)} {t : τ}
    (h : Written fs ms t) (o : Origin) : Fills o fs fs.emptySlots ms (fs.full t) := by
  induction h with
  | done => exact .nil _
  | @field α β name dec missing rest v a ms b hv hname _ ih =>
    refine .cons ?_ (ih.behind hname (some a))
    simp [fill, emptySlots, hv.2 o, Except.map]

theorem Fills.ofMembers {o : Origin} {τ : Type} {fs : Fields τ} {s t : fs.Slots}
    {ms : List (String × Value)} (h : Fills o fs s ms t) :
    fs.ofMembers o s (Members.ofValues ms) = fs.close t := by
  induction h with
  | nil s => rfl
  | cons hfill _ ih =>
    rw [Members.ofValues, Fields.ofMembers]
    simpa [Decoder.keyText, hfill, bind, Except.bind] using ih

theorem Written.hasWords {τ : Type} {fs : Fields τ} {ms : List (String × Value)} {t : τ}
    (h : Written fs ms t) : MembersHaveWords ms := by
  induction h with
  | done => trivial
  | field hv _ _ ih => exact ⟨hv.1, ih⟩

/-- A record is read back from the object of its fields. -/
theorem Written.reads {τ : Type} {fs : Fields τ} {ms : List (String × Value)} {t : τ}
    (h : Written fs ms t) : Reads fs.decoder (.object ms) t := by
  refine ⟨h.hasWords, fun o => ?_⟩
  rw [Doc.ofValue, decoder, (h.fills o).ofMembers, close_full]

end Fields

/-- Behind the own field, the other members are kept as they are. -/
theorem splitField_ofValues {name : String} {dec : Decoder α} {room : Nat} (a : α)
    {ms : List (String × Value)} (hname : name ∉ ms.map (·.1))
    (hkeep : ∀ m ∈ ms, (Doc.ofValue m.2).keep room = .ok ()) (others : List (String × Doc)) :
    splitField name dec room (some a) others (Members.ofValues ms) =
      .ok (a, others.reverse ++ ms.map fun m => (m.1, .ofValue m.2)) := by
  induction ms generalizing others with
  | nil => simp [Members.ofValues, splitField]
  | cons m ms ih =>
    obtain ⟨hm, hkeep⟩ := List.forall_mem_cons.mp hkeep
    simp only [List.map_cons, List.mem_cons, not_or] at hname
    have hrest := ih hname.2 hkeep ((m.1, .ofValue m.2) :: others)
    simpa [Members.ofValues, splitField, Decoder.keyText, Ne.symm hname.1, hm, bind, Except.bind]
      using hrest

/-- A record is read back from an object in which it stands behind a field of its own, if that has a
name of its own too. -/
theorem reads_besideField {τ : Type} {name : String} {dec : Decoder α} {fs : Fields τ} {v : Value}
    {a : α} {ms : List (String × Value)} {t : τ} (hv : Reads dec v a) (hname : name ∉ ms.map (·.1))
    (hkeep : ∀ m ∈ ms, (Doc.ofValue m.2).keep 126 = .ok ()) (h : Fields.Written fs ms t) :
    Reads (besideField name dec fs) (.object ((name, v) :: ms)) (a, t) := by
  refine ⟨⟨hv.1, h.hasWords⟩, fun o => ?_⟩
  have hsplit : splitField name dec 126 none [] (Members.ofValues ((name, v) :: ms)) =
      .ok (a, ms.map fun m => (m.1, .ofValue m.2)) := by
    have hrest : splitField name dec 126 (some a) [] (Members.ofValues ms) = _ :=
      splitField_ofValues a hname hkeep []
    simpa [Members.ofValues, splitField, Decoder.keyText, hv.2, bind, Except.bind] using hrest
  have hmembers : fs.ofMembers .kept fs.emptySlots (.ofList none
      ((ms.map fun m => (m.1, Doc.ofValue m.2)).map fun m => (.text m.1, m.2))) = .ok t := by
    rw [List.map_map]
    exact (congrArg _ (Members.ofList_map ms)).trans
      ((h.fills .kept).ofMembers.trans (Fields.close_full fs t))
  rw [Doc.ofValue, besideField, hsplit]
  exact congrArg (fun r => r.bind fun t => .ok (a, t)) hmembers

end LedgerNode.Json
