import LedgerNode.Json.Decode
import LedgerNode.Proofs.Json.Extension

/-!
Decoders that accept no document with a fault in it, not even in the parts that they skip.  Records of
such fields cannot be written one behind the other: the text of one, with more behind it, is none.
-/
namespace LedgerNode.Json

/-- What comes of two steps was there after the first. -/
theorem exists_of_bind {ε α β : Type} {x : Except ε α} {f : α → Except ε β} {b : β}
    (h : x >>= f = .ok b) : ∃ a, x = .ok a ∧ f a = .ok b := by
  cases x with
  | error e => cases h
  | ok a => exact ⟨a, rfl, h⟩

theorem exists_of_map {ε α β : Type} {x : Except ε α} {f : α → β} {b : β} (h : x.map f = .ok b) :
    ∃ a, x = .ok a ∧ f a = b := by
  cases x with
  | error e => cases h
  | ok a => exact ⟨a, rfl, Except.ok.inj h⟩

/-- The decoder accepts no document with a fault in it, not even in what it skips. -/
def Decoder.IsStrict {α : Type} (dec : Decoder α) : Prop :=
  ∀ ⦃o d a⦄, dec o d = .ok a → d.skip = .ok ()

namespace Decoder

variable {α β : Type}

theorem isStrict_map {dec : Decoder α} (h : dec.IsStrict) (f : α → β) : (dec.map f).IsStrict := by
  intro o d b hb
  obtain ⟨a, ha, -⟩ := exists_of_map hb
  exact h ha

theorem isStrict_text : text.IsStrict := by
  intro o d s h
  cases d with
  | text t => rfl
  | _ => cases h

theorem isStrict_parsed (parse : String → Except ContentError α) : (parsed parse).IsStrict := by
  intro o d a h
  obtain ⟨s, hs, -⟩ := exists_of_bind h
  exact isStrict_text hs

theorem isStrict_naturalBelow (bound : Nat) : (naturalBelow bound).IsStrict := by
  intro o d n h
  cases d with
  | number m => rfl
  | _ => cases h

theorem skip_of_items {dec : Decoder α} (h : dec.IsStrict) {o : Origin} :
    ∀ {xs : Items} {as : List α}, items dec o xs = .ok as → xs.skip = .ok ()
  | .stop none, _, _ => rfl
  | .stop (some b), _, hxs => by cases hxs
  | .item d rest, as, hxs => by
    rw [items] at hxs
    obtain ⟨a, ha, hxs⟩ := exists_of_bind hxs
    obtain ⟨as, has, -⟩ := exists_of_bind hxs
    exact (Items.skip_item d rest).mpr ⟨h ha, skip_of_items h has⟩

theorem isStrict_list {dec : Decoder α} (h : dec.IsStrict) : (list dec).IsStrict := by
  intro o d as has
  cases d with
  | array xs => exact skip_of_items h has
  | _ => cases has

theorem text_of_keyText {k : Doc} {s : String} (h : keyText k = .ok s) : k = .text s := by
  unfold keyText at h
  split at h <;> cases h
  rfl

theorem isStrict_variant (names : List (String × α)) : (variant names).IsStrict := by
  intro o d a h
  cases d with
  | text s => rfl
  | object ms =>
    rw [Doc.skip]
    simp only [variant] at h
    split at h
    -- a value that is kept, or that was kept once, is read in the same way
    case h_1 | h_2 =>
      obtain ⟨b, -, hcontent⟩ := exists_of_bind h
      split at hcontent
      · rfl
      · rfl
      · cases hcontent
    case h_7 k d rest =>
      obtain ⟨s, hs, hpick⟩ := exists_of_bind h
      obtain ⟨b, -, hcontent⟩ := exists_of_bind hpick
      obtain rfl := text_of_keyText hs
      split at hcontent
      · split at hcontent <;> first | rfl | cases hcontent
      · cases hcontent
    all_goals cases h
  | faulty place read skipped => cases o <;> cases place <;> cases h
  | _ => cases o <;> cases h

end Decoder

namespace Fields

/-- The decoders of all fields are strict. -/
def AreStrict : {τ : Type} → Fields τ → Prop
  | _, .done => True
  | _, .field _ dec _ rest => dec.IsStrict ∧ rest.AreStrict

theorem skip_of_fill {τ : Type} {fs : Fields τ} (h : fs.AreStrict) {o : Origin} {key : String}
    {d : Doc} {s t : fs.Slots} (hfill : fs.fill o key d s = .ok (some t)) : d.skip = .ok () := by
  induction fs with
  | done => cases hfill
  | field name dec missing rest ih =>
    obtain ⟨found, others⟩ := s
    rw [fill] at hfill
    split at hfill
    · split at hfill
      · cases hfill
      · obtain ⟨a, ha, -⟩ := exists_of_map hfill
        exact h.1 ha
    · obtain ⟨filled, hrest, hfilled⟩ := exists_of_map hfill
      cases filled with
      | none => cases hfilled
      | some slots => exact ih h.2 hrest

theorem skip_of_ofMembers {τ : Type} {fs : Fields τ} (h : fs.AreStrict) {o : Origin} :
    ∀ {ms : Members} {s : fs.Slots} {t : τ}, fs.ofMembers o s ms = .ok t → ms.skip = .ok ()
  | .stop none, _, _, _ => rfl
  | .stop (some b), _, _, hms => by cases hms
  | .member k d rest, s, t, hms => by
    rw [ofMembers] at hms
    obtain ⟨key, hkey, hms⟩ := exists_of_bind hms
    obtain ⟨filled, hfill, hms⟩ := exists_of_bind hms
    obtain rfl := Decoder.text_of_keyText hkey
    rw [Members.skip_member]
    cases filled with
    | some slots => exact ⟨trivial, skip_of_fill h hfill, skip_of_ofMembers h hms⟩
    | none =>
      cases hd : d.skip with
      | error b =>
        rw [hd] at hms
        cases hms
      | ok _ =>
        rw [hd] at hms
        exact ⟨trivial, rfl, skip_of_ofMembers h hms⟩

theorem skip_of_ofItems {τ : Type} {fs : Fields τ} (h : fs.AreStrict) {o : Origin} {xs : Items}
    {t : τ} (hxs : fs.ofItems o xs = .ok t) : xs.skip = .ok () := by
  induction fs generalizing xs with
  | done =>
    cases xs with
    | stop fault =>
      cases fault with
      | none => rfl
      | some b => cases hxs
    | item d rest => cases hxs
  | field name dec missing rest ih =>
    cases xs with
    | stop fault =>
      cases fault with
      | none => rfl
      | some b => cases hxs
    | item d ds =>
      rw [ofItems] at hxs
      obtain ⟨a, ha, hxs⟩ := exists_of_bind hxs
      obtain ⟨b, hb, -⟩ := exists_of_bind hxs
      exact (Items.skip_item d ds).mpr ⟨h.1 ha, ih h.2 hb⟩

/-- A record is read from an array or object that has no fault. -/
theorem skip_of_decoder {τ : Type} {fs : Fields τ} (h : fs.AreStrict) {o : Origin} {d : Doc} {t : τ}
    (hd : fs.decoder o d = .ok t) : d.IsBracketed ∧ d.skip = .ok () := by
  cases d with
  | object ms => exact ⟨trivial, skip_of_ofMembers h hd⟩
  | array xs => exact ⟨trivial, skip_of_ofItems h hd⟩
  | _ => cases hd

theorem isStrict_decoder {τ : Type} {fs : Fields τ} (h : fs.AreStrict) : fs.decoder.IsStrict :=
  fun _ _ _ hd => (skip_of_decoder h hd).2

variable {α τ : Type} {fs : Fields τ} {f : τ → α}

/-- A record is decoded from a document without a fault, behind which nothing stands. -/
theorem read_of_decode (h : fs.AreStrict) {s : Bytes} {a : α}
    (hs : decode (fs.decoder.map f) s = .ok a) :
    ∃ d, read s = (d, false) ∧ d.IsBracketed ∧ d.skip = .ok () ∧
      fs.decoder.map f .text d = .ok a := by
  rw [decode] at hs
  rcases hread : read s with ⟨d, trailing⟩
  rw [hread] at hs
  obtain ⟨b, hb, htrailing⟩ := exists_of_bind hs
  obtain ⟨t, ht, -⟩ := exists_of_map hb
  obtain ⟨hbracket, hskip⟩ := skip_of_decoder h ht
  cases trailing with
  | true => cases htrailing
  | false =>
    cases htrailing
    exact ⟨d, rfl, hbracket, hskip, hb⟩

/-- Behind a record nothing but white space can stand. -/
theorem decode_append (h : fs.AreStrict) {s : Bytes} {a : α}
    (hs : decode (fs.decoder.map f) s = .ok a) {x : Bytes} (hx : tokens x ≠ []) :
    decode (fs.decoder.map f) (s ++ x) = .error (.broken .malformed) := by
  obtain ⟨d, hread, hbracket, hskip, ha⟩ := read_of_decode h hs
  rw [decode, read_append hread hskip hbracket hx]
  simp only [ha]
  rfl

/-- White space behind a text changes nothing in the record that is decoded; where none is, it may be
refused for another cause. -/
theorem decode_append_space (h : fs.AreStrict) {c : UInt8} (hc : isSpace c = true) (s : Bytes) :
    decode (fs.decoder.map f) (s ++ [c]) = decode (fs.decoder.map f) s ∨
      (∃ cause, decode (fs.decoder.map f) s = .error cause) ∧
        ∃ cause, decode (fs.decoder.map f) (s ++ [c]) = .error cause := by
  have hrefused {s : Bytes} (hs : ∃ t ∈ tokens s, ¬ t.IsSound) :
      ∃ cause, decode (fs.decoder.map f) s = .error cause := by
    obtain ⟨t, ht, hunsound⟩ := hs
    cases hdecode : decode (fs.decoder.map f) s with
    | error cause => exact ⟨cause, rfl⟩
    | ok a =>
      obtain ⟨d, hread, -, hskip, -⟩ := read_of_decode h hdecode
      exact absurd (isSound_of_read hread hskip t ht) hunsound
  rcases tokens_append_space hc s with htokens | ⟨hs, hs'⟩
  · left
    rw [decode, decode, read, read, htokens]
  · exact Or.inr ⟨hrefused hs, hrefused hs'⟩

/-- A byte with which no token begins makes a text unreadable. -/
theorem decode_stray {b : UInt8} {rest : Bytes} (hspace : isSpace b = false)
    (hscan : scanToken b rest = (.stray, [])) :
    decode (fs.decoder.map f) (b :: rest) = .error (.broken .malformed) := by
  have htokens : tokens (b :: rest) = [.stray] := by simp [tokens, hspace, hscan]
  rw [decode, read, htokens]
  rfl

end Fields

/-- White space before a document is not part of it. -/
theorem decode_spaces {α : Type} (dec : Decoder α) {spaces : Bytes} (h : spaces.all isSpace = true)
    (s : Bytes) : decode dec (spaces ++ s) = decode dec s := by
  have htokens : tokens (spaces ++ s) = tokens s := by
    induction spaces with
    | nil => rfl
    | cons b spaces ih =>
      obtain ⟨hb, hspaces⟩ := (Bool.and_eq_true _ _).mp h
      rw [List.cons_append, tokens, if_pos hb, ih hspaces]
  rw [decode, read, htokens]
  rfl

end LedgerNode.Json
