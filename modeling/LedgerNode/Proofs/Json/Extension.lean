import LedgerNode.Json.Reader
import LedgerNode.Proofs.Json.Tokens

/-!
Reading a text that goes on.  An array or object without a fault in it is read up to the bracket that
closes it, whatever follows.
-/
namespace LedgerNode.Json

section documents

/-- A document that may stand in the place of a key. -/
def Doc.IsKey : Doc → Prop
  | .text _ => True
  | .faulty _ _ skipped => skipped = none
  | _ => False

theorem Doc.IsKey.skip {k : Doc} (h : k.IsKey) : k.skip = .ok () := by
  cases k with
  | text s => rfl
  | faulty place read skipped =>
    obtain rfl : skipped = none := h
    rfl
  | _ => exact h.elim

theorem Items.skip_item (d : Doc) (rest : Items) :
    (Items.item d rest).skip = .ok () ↔ d.skip = .ok () ∧ rest.skip = .ok () := by
  rw [Items.skip]
  cases d.skip <;> simp [bind, Except.bind]

theorem Members.skip_member (k d : Doc) (rest : Members) :
    (Members.member k d rest).skip = .ok () ↔ k.IsKey ∧ d.skip = .ok () ∧ rest.skip = .ok () := by
  cases k with
  | text s =>
    rw [Members.skip]
    cases d.skip <;> simp [bind, Except.bind, Doc.IsKey]
  | faulty place read skipped =>
    cases skipped with
    | none =>
      rw [Members.skip] <;> cases d.skip <;> simp [bind, Except.bind, Doc.IsKey]
    | some b =>
      rw [Members.skip]
      simp [bind, Except.bind, throw, throwThe, MonadExceptOf.throw, Doc.IsKey]
  | _ => simp [Members.skip, Doc.IsKey]

theorem Items.skip_ofList (fault : Option Break) (ds : List Doc) :
    (Items.ofList fault ds).skip = .ok () ↔ fault = none ∧ ∀ d ∈ ds, d.skip = .ok () := by
  induction ds with
  | nil => cases fault <;> simp [ofList, skip]
  | cons d ds ih =>
    rw [ofList, skip_item, ih, List.forall_mem_cons]
    exact and_left_comm

theorem Members.skip_ofList (fault : Option Break) (ms : List (Doc × Doc)) :
    (Members.ofList fault ms).skip = .ok () ↔
      fault = none ∧ ∀ m ∈ ms, m.1.IsKey ∧ m.2.skip = .ok () := by
  induction ms with
  | nil => cases fault <;> simp [ofList, skip]
  | cons m ms ih =>
    rw [ofList, skip_member, ih, List.forall_mem_cons, ← and_assoc]
    exact and_left_comm

end documents

section reading

/-- A text that breaks off inside a context has a fault in its document, unless nothing encloses it. -/
theorem Context.skip_close {b : Break} {context : Context} {d : Doc}
    (h : (context.close b d).skip = .ok ()) : context = .top ∧ d.skip = .ok () := by
  have hitems (before : List Doc) (d : Doc) :
      (Doc.array (.ofList (some b) (before.reverse ++ [d]))).skip ≠ .ok () := by
    rw [Doc.skip, ne_eq, Items.skip_ofList]
    nofun
  have hmembers (before : List (Doc × Doc)) :
      (Doc.object (.ofList (some b) before)).skip ≠ .ok () := by
    rw [Doc.skip, ne_eq, Members.skip_ofList]
    nofun
  induction context generalizing d with
  | top => exact ⟨rfl, h⟩
  | inArray before outer ih => exact absurd (ih h).2 (hitems before d)
  | inObject before outer ih => exact absurd (ih h).2 (hmembers _)
  | inMember before key outer ih => exact absurd (ih h).2 (hmembers _)

theorem Context.skip_closeInner (b : Break) (context : Context) :
    (context.closeInner b).skip ≠ .ok () := by
  cases context with
  | top => nofun
  | inArray before outer =>
    intro h
    have hd := (skip_close h).2
    rw [Doc.skip, Items.skip_ofList] at hd
    cases hd.1
  | inObject before outer | inMember before _ outer =>
    intro h
    have hd := (skip_close h).2
    rw [Doc.skip, Members.skip_ofList] at hd
    cases hd.1

theorem Context.skip_closeMember (b : Break) (key value : Doc) (context : Context) :
    (context.closeMember b key value).skip ≠ .ok () := by
  cases context with
  | inObject before outer =>
    intro h
    cases (skip_close h).1
  | top => exact skip_closeInner b .top
  | inArray before outer => exact skip_closeInner b (.inArray before outer)
  | inMember before k outer => exact skip_closeInner b (.inMember before k outer)

theorem skip_breakOff (context : Context) (b : Break) (expect : Expect) :
    (breakOff context b expect).skip ≠ .ok () := by
  cases expect with
  | value =>
    intro h
    cases (Context.skip_close h).2
  | key | colon => exact Context.skip_closeMember b _ _ context
  | _ => exact context.skip_closeInner b

/-- A value may come next; in an object there must be a key first. -/
def Context.TakesValue : Context → Prop
  | .inObject _ _ => False
  | _ => True

/-- Everything that encloses something waits for its value. -/
def Context.IsNested : Context → Prop
  | .top => True
  | .inArray _ outer | .inObject _ outer | .inMember _ _ outer => outer.TakesValue ∧ outer.IsNested

def Reading.IsPlaced : Reading → Prop
  | .within context expect =>
    (expect = .value ∨ expect = .itemOrEnd → context.TakesValue) ∧ context.IsNested
  | .complete _ _ => True

theorem Context.isPlaced_deliver {context : Context} (h : context.IsNested) (d : Doc) :
    (context.deliver d).IsPlaced := by
  cases context with
  | top => trivial
  | _ => exact ⟨by simp, h⟩

/-- What a context holds has no fault for a reader who skips it. -/
def Context.IsSound : Context → Prop
  | .top => True
  | .inArray before outer => (∀ d ∈ before, d.skip = .ok ()) ∧ outer.IsSound
  | .inObject before outer => (∀ m ∈ before, m.1.IsKey ∧ m.2.skip = .ok ()) ∧ outer.IsSound
  | .inMember before key outer =>
    (∀ m ∈ before, m.1.IsKey ∧ m.2.skip = .ok ()) ∧ key.IsKey ∧ outer.IsSound

def Reading.IsSound : Reading → Prop
  | .within context expect => (∀ key, expect = .colon key → key.IsKey) ∧ context.IsSound
  | .complete d trailing => d.skip = .ok () ∧ trailing = false

theorem Context.isSound_of_deliver {context : Context} (hvalue : context.TakesValue) {d : Doc}
    (h : (context.deliver d).IsSound) : context.IsSound ∧ d.skip = .ok () := by
  cases context with
  | top => exact ⟨trivial, h.1⟩
  | inArray before outer =>
    obtain ⟨-, hd, houter⟩ := h
    rw [List.forall_mem_cons] at hd
    exact ⟨⟨hd.2, houter⟩, hd.1⟩
  | inObject before outer => exact hvalue.elim
  | inMember before key outer =>
    obtain ⟨-, hm, houter⟩ := h
    rw [List.forall_mem_cons] at hm
    exact ⟨⟨hm.2, hm.1.1, houter⟩, hm.1.2⟩

/-- What a token may do inside a context: break the text off, or lead on in one of a few ways. -/
inductive Advance : Context → Expect → Token → Reading → Prop
  | broken {context expect t d} (hd : d.skip ≠ .ok ()) : Advance context expect t (.complete d false)
  | openArray {context expect} (he : expect = .value ∨ expect = .itemOrEnd) :
      Advance context expect .openArray (.within (.inArray [] context) .itemOrEnd)
  | openObject {context expect} (he : expect = .value ∨ expect = .itemOrEnd) :
      Advance context expect .openObject (.within (.inObject [] context) .keyOrEnd)
  | value {context expect t d} (he : expect = .value ∨ expect = .itemOrEnd)
      (ht : t = .text d ∨ t = .word d) : Advance context expect t (context.deliver d)
  | key {context expect d} (he : expect = .keyOrEnd ∨ expect = .key) :
      Advance context expect (.text d) (.within context (.colon d))
  | colon {before outer key} :
      Advance (.inObject before outer) (.colon key) .colon (.within (.inMember before key outer) .value)
  | nextItem {before outer} :
      Advance (.inArray before outer) .commaOrEnd .comma (.within (.inArray before outer) .value)
  | nextMember {before outer} :
      Advance (.inObject before outer) .commaOrEnd .comma (.within (.inObject before outer) .key)
  | closeArray {before outer expect} (he : expect = .itemOrEnd ∨ expect = .commaOrEnd) :
      Advance (.inArray before outer) expect .closeArray
        (outer.deliver (.array (.ofList none before.reverse)))
  | closeObject {before outer expect} (he : expect = .keyOrEnd ∨ expect = .commaOrEnd) :
      Advance (.inObject before outer) expect .closeObject
        (outer.deliver (.object (.ofList none before.reverse)))

theorem advance_readValue {context : Context} {expect : Expect}
    (he : expect = .value ∨ expect = .itemOrEnd) (t : Token) :
    Advance context expect t (readValue context .value t) := by
  cases t with
  | openArray => exact .openArray he
  | openObject => exact .openObject he
  | text d => exact .value he (Or.inl rfl)
  | word d => exact .value he (Or.inr rfl)
  | _ => exact .broken (skip_breakOff context .malformed .value)

theorem advance_readKey {context : Context} {expect : Expect}
    (he : expect = .keyOrEnd ∨ expect = .key) (t : Token) :
    Advance context expect t (readKey context .key t) := by
  cases t with
  | text d => exact .key he
  | word | openArray | openObject => exact .broken (context.skip_closeMember .malformed _ _)
  | _ => exact .broken (skip_breakOff context .malformed .key)

theorem advance_step (context : Context) (expect : Expect) (t : Token) :
    Advance context expect t (Reading.step (.within context expect) t) := by
  simp only [Reading.step]
  split
  · exact .closeArray (Or.inl rfl)
  · exact .closeObject (Or.inl rfl)
  · exact .closeArray (Or.inr rfl)
  · exact .closeObject (Or.inr rfl)
  · exact .nextItem
  · exact .nextMember
  · exact .broken (skip_breakOff _ .malformed .commaOrEnd)
  · exact .colon
  · exact .broken (skip_breakOff _ .malformed (.colon _))
  · exact advance_readValue (Or.inl rfl) _
  · exact advance_readValue (Or.inr rfl) _
  · exact advance_readKey (Or.inl rfl) _
  · exact advance_readKey (Or.inr rfl) _

theorem Reading.isPlaced_step {r : Reading} (h : r.IsPlaced) (t : Token) : (r.step t).IsPlaced := by
  cases r with
  | complete d trailing => trivial
  | within context expect =>
    obtain ⟨hvalue, hnested⟩ := h
    have hstep := advance_step context expect t
    generalize Reading.step (.within context expect) t = r at hstep
    cases hstep with
    | broken hd => trivial
    | openArray he => exact ⟨fun _ => trivial, hvalue he, hnested⟩
    | openObject he => exact ⟨by simp, hvalue he, hnested⟩
    | value he ht => exact context.isPlaced_deliver hnested _
    | key he => exact ⟨by simp, hnested⟩
    | colon | nextItem => exact ⟨fun _ => trivial, hnested⟩
    | nextMember => exact ⟨by simp, hnested⟩
    | closeArray he | closeObject he => exact Context.isPlaced_deliver hnested.2 _

/-- A reading that has become sound was sound, and so was the token. -/
theorem Reading.isSound_of_step {r : Reading} (hplaced : r.IsPlaced) {t : Token}
    (h : (r.step t).IsSound) : r.IsSound ∧ t.IsSound := by
  cases r with
  | complete d trailing => cases h.2
  | within context expect =>
    obtain ⟨hvalue, hnested⟩ := hplaced
    have hstep := advance_step context expect t
    generalize Reading.step (.within context expect) t = r at hstep h
    cases hstep with
    | broken hd => exact absurd h.1 hd
    | openArray he | openObject he =>
      refine ⟨⟨?_, h.2.2⟩, trivial⟩
      rintro key rfl
      simp at he
    | value he ht =>
      obtain ⟨hcontext, hd⟩ := Context.isSound_of_deliver (hvalue he) h
      refine ⟨⟨?_, hcontext⟩, ?_⟩
      · rintro key rfl
        simp at he
      · rcases ht with rfl | rfl <;> exact hd
    | key he =>
      refine ⟨⟨?_, h.2⟩, (h.1 _ rfl).skip⟩
      rintro key rfl
      simp at he
    | @colon before outer key =>
      obtain ⟨-, hbefore, hkey, houter⟩ := h
      refine ⟨⟨?_, hbefore, houter⟩, trivial⟩
      rintro _ ⟨⟩
      exact hkey
    | nextItem | nextMember => exact ⟨⟨nofun, h.2⟩, trivial⟩
    | closeArray he =>
      obtain ⟨houter, hd⟩ := Context.isSound_of_deliver hnested.1 h
      rw [Doc.skip, Items.skip_ofList] at hd
      refine ⟨⟨?_, by simpa using hd.2, houter⟩, trivial⟩
      rintro key rfl
      simp at he
    | closeObject he =>
      obtain ⟨houter, hd⟩ := Context.isSound_of_deliver hnested.1 h
      rw [Doc.skip, Members.skip_ofList] at hd
      refine ⟨⟨?_, by simpa using hd.2, houter⟩, trivial⟩
      rintro key rfl
      simp at he

/-- A reading that ends soundly had nothing but sound tokens. -/
theorem Reading.isSound_of_foldl {r : Reading} (hplaced : r.IsPlaced) {ts : List Token}
    (h : (ts.foldl Reading.step r).IsSound) : r.IsSound ∧ ∀ t ∈ ts, t.IsSound := by
  induction ts generalizing r with
  | nil => exact ⟨h, nofun⟩
  | cons t ts ih =>
    obtain ⟨hnext, hrest⟩ := ih (isPlaced_step hplaced t) h
    obtain ⟨hr, ht⟩ := isSound_of_step hplaced hnext
    exact ⟨hr, List.forall_mem_cons.mpr ⟨ht, hrest⟩⟩

theorem Reading.eq_complete_of_finish {r : Reading} {d : Doc} {trailing : Bool}
    (h : r.finish = (d, trailing)) (hd : d.skip = .ok ()) : r = .complete d trailing := by
  cases r with
  | complete e trailing =>
    cases h
    rfl
  | within context expect =>
    cases h
    exact absurd hd (skip_breakOff context .cut expect)

/-- A document that a last name or number completes is just that. -/
theorem Reading.eq_of_step_word {r : Reading} {d w : Doc} (hd : d.skip = .ok ())
    (h : r.step (.word w) = .complete d false) : d = w := by
  cases r with
  | complete e trailing => cases h
  | within context expect =>
    have hstep := advance_step context expect (.word w)
    rw [h] at hstep
    generalize hdone : Reading.complete d false = done at hstep
    cases hstep with
    | broken hbroken =>
      cases hdone
      exact absurd hd hbroken
    | value he ht =>
      cases context with
      | top =>
        cases hdone
        rcases ht with ht | ht <;> cases ht
        rfl
      | _ => cases hdone

/-- A document without a fault was read from tokens without one. -/
theorem isSound_of_read {s : Bytes} {d : Doc} (h : read s = (d, false)) (hd : d.skip = .ok ()) :
    ∀ t ∈ tokens s, t.IsSound := by
  have hplaced : (Reading.within .top .value).IsPlaced := ⟨fun _ => trivial, trivial⟩
  have hcomplete : ((tokens s).foldl Reading.step (.within .top .value)).IsSound := by
    rw [Reading.eq_complete_of_finish h hd]
    exact ⟨hd, rfl⟩
  exact (Reading.isSound_of_foldl hplaced hcomplete).2

/-- An array or object without a fault is read up to the bracket that closes it, whatever follows. -/
theorem read_append {s : Bytes} {d : Doc} (h : read s = (d, false)) (hd : d.skip = .ok ())
    (hbracket : d.IsBracketed) {x : Bytes} (hx : tokens x ≠ []) : read (s ++ x) = (d, true) := by
  have hdone : (tokens s).foldl Reading.step (.within .top .value) = .complete d false :=
    Reading.eq_complete_of_finish h hd
  have hlast : ∀ w, (tokens s).getLast? ≠ some (.word w) := by
    intro w hw
    obtain ⟨ts, hts⟩ := List.getLast?_eq_some_iff.mp hw
    rw [hts, List.foldl_append, List.foldl_cons, List.foldl_nil] at hdone
    obtain rfl := Reading.eq_of_step_word hd hdone
    exact not_isBracketed_of_word (s := s) (by simp [hts]) hbracket
  have hrest (ts : List Token) (hts : ts ≠ []) :
      ts.foldl Reading.step (.complete d false) = .complete d true := by
    obtain ⟨t, ts, rfl⟩ := List.exists_cons_of_ne_nil hts
    rw [List.foldl_cons]
    clear hts
    induction ts with
    | nil => rfl
    | cons u ts ih => exact ih
  rw [read, tokens_append (isSound_of_read h hd) hlast, List.foldl_append, hdone, hrest _ hx]
  rfl

end reading

end LedgerNode.Json
