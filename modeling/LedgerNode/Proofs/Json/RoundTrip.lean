import LedgerNode.Json.Decode
import LedgerNode.Proofs.Json.Numbers
import LedgerNode.Proofs.Json.Strings

/-!
Reading back what was written: the text of a value is read as the document of that value.  The text
is UTF-8, without control characters, so it takes up one line.
-/
namespace LedgerNode.Json

open Text

/-- The reading that a text leads to. -/
def readOn (r : Reading) (s : Bytes) : Reading := (tokens s).foldl Reading.step r

theorem readOn_nil (r : Reading) : readOn r [] = r := by simp [readOn, tokens]

theorem readOn_cons {r : Reading} {b : UInt8} {rest after : Bytes} {t : Token}
    (hb : isSpace b = false) (ht : scanToken b rest = (t, after)) :
    readOn r (b :: rest) = readOn (r.step t) after := by
  simp [readOn, tokens, hb, ht]

theorem readOn_mark {r : Reading} {b : UInt8} {t : Token} (hb : isSpace b = false)
    (ht : mark? b = some t) (rest : Bytes) : readOn r (b :: rest) = readOn (r.step t) rest :=
  readOn_cons hb (by simp [scanToken, ht])

theorem readOn_text (r : Reading) (s : String) (rest : Bytes) :
    readOn r (renderText s ++ rest) = readOn (r.step (.text (.text s))) rest := by
  have hscan : scanToken 0x22 ((utf8 s).flatMap escapeByte ++ 0x22 :: rest) =
      (.text (.text s), rest) := by
    simp [scanToken, scanText_escaped, show mark? 0x22 = none by decide]
  rw [renderText, List.cons_append, List.cons_append, List.append_assoc]
  exact readOn_cons (by decide) hscan

theorem readOn_nat (r : Reading) {n : Nat} (hn : n < UInt64.size) {rest : Bytes} (hr : Follows rest) :
    readOn r (renderNat n ++ rest) = readOn (r.step (.word (.number (.natural n.toUInt64)))) rest := by
  obtain ⟨-, -, b, ds, hcons, -⟩ := renderNat_digits n
  obtain ⟨hspace, hscan⟩ := scanToken_renderNat hn hr hcons
  rw [hcons, List.cons_append]
  exact readOn_cons hspace hscan

theorem readOn_name (r : Reading) (v : Value) (rest : Bytes)
    (hv : v = .null ∨ v = .boolean true ∨ v = .boolean false) :
    readOn r (v.render ++ rest) = readOn (r.step (.word (.ofValue v))) rest := by
  rcases hv with rfl | rfl | rfl
  all_goals
    rw [Value.render, List.cons_append]
    refine readOn_cons (by decide) ?_
    simp [scanToken, scanWord, scanName, mark?, Doc.ofValue]

mutual

/-- All numbers in the value are whole, not negative and below 2^64. -/
def Value.HasWords : Value → Prop
  | .number n => 0 ≤ n ∧ n < UInt64.size
  | .array items => ItemsHaveWords items
  | .object members => MembersHaveWords members
  | _ => True

def ItemsHaveWords : List Value → Prop
  | [] => True
  | v :: rest => v.HasWords ∧ ItemsHaveWords rest

def MembersHaveWords : List (String × Value) → Prop
  | [] => True
  | (_, v) :: rest => v.HasWords ∧ MembersHaveWords rest

end

theorem Items.ofList_map (vs : List Value) :
    Items.ofList none (vs.map Doc.ofValue) = Items.ofValues vs := by
  induction vs with
  | nil => rfl
  | cons v vs ih => rw [List.map_cons, Items.ofList, ih, Items.ofValues]

theorem Members.ofList_map (ms : List (String × Value)) :
    Members.ofList none (ms.map fun m => (.text m.1, .ofValue m.2)) = Members.ofValues ms := by
  induction ms with
  | nil => rfl
  | cons m ms ih => rw [List.map_cons, Members.ofList, ih, Members.ofValues]

/-- In the place of a value, also of a first item, any token but a closing bracket begins one. -/
theorem step_value {context : Context} {expect : Expect}
    (he : expect = .value ∨ expect = .itemOrEnd) (t : Token) (ht : t ≠ .closeArray) :
    Reading.step (.within context expect) t = readValue context .value t := by
  rcases he with rfl | rfl
  · cases context <;> cases t <;> rfl
  · cases context <;> cases t <;> first | rfl | exact absurd rfl ht

/-- In the place of a key, also of a first one, a string and a colon lead to the member's value. -/
theorem readOn_key {expect : Expect} (he : expect = .keyOrEnd ∨ expect = .key)
    (before : List (Doc × Doc)) (outer : Context) (k : String) (rest : Bytes) :
    readOn (.within (.inObject before outer) expect) (renderText k ++ 0x3a :: rest) =
      readOn (.within (.inMember before (.text k) outer) .value) rest := by
  have hkey : Reading.step (.within (.inObject before outer) expect) (.text (.text k)) =
      .within (.inObject before outer) (.colon (.text k)) := by
    rcases he with rfl | rfl <;> rfl
  rw [readOn_text, hkey, readOn_mark (by decide) (rfl : mark? 0x3a = some .colon)]
  rfl

theorem renderItems_cons (v w : Value) (vs : List Value) :
    renderItems (v :: w :: vs) = v.render ++ 0x2c :: renderItems (w :: vs) := by
  rw [renderItems]
  nofun

theorem renderMembers_cons (k : String) (v : Value) (m : String × Value)
    (ms : List (String × Value)) :
    renderMembers ((k, v) :: m :: ms) =
      renderText k ++ 0x3a :: v.render ++ 0x2c :: renderMembers (m :: ms) := by
  rw [renderMembers]
  nofun

mutual

/-- The text of a value is read as its document, wherever a value may stand. -/
theorem readOn_value : ∀ (v : Value) (context : Context) (expect : Expect) (rest : Bytes),
    v.HasWords → Follows rest → expect = .value ∨ expect = .itemOrEnd →
    readOn (.within context expect) (v.render ++ rest) = readOn (context.deliver (.ofValue v)) rest
  | .null, context, expect, rest, _, _, he => by
    rw [readOn_name _ _ _ (by simp), step_value he _ (by simp)]
    rfl
  | .boolean true, context, expect, rest, _, _, he => by
    rw [readOn_name _ _ _ (by simp), step_value he _ (by simp)]
    rfl
  | .boolean false, context, expect, rest, _, _, he => by
    rw [readOn_name _ _ _ (by simp), step_value he _ (by simp)]
    rfl
  | .number (.ofNat n), context, expect, rest, hv, hr, he => by
    have hn : n < UInt64.size := Int.ofNat_lt.mp hv.2
    rw [Value.render, renderInt, readOn_nat _ hn hr, step_value he _ (by simp)]
    simp [readValue, Doc.ofValue, Number.ofInt, hn]
  | .number (.negSucc n), context, expect, rest, hv, _, _ => by
    exact absurd hv.1 (by omega)
  | .text s, context, expect, rest, _, _, he => by
    rw [Value.render, readOn_text, step_value he _ (by simp)]
    rfl
  | .array items, context, expect, rest, hv, hr, he => by
    rw [Value.render, List.cons_append, readOn_mark (by decide) (rfl : mark? 0x5b = some .openArray),
      step_value he _ (by simp), Doc.ofValue, ← Items.ofList_map]
    exact readOn_items items [] context .itemOrEnd rest hv hr (Or.inl rfl)
  | .object members, context, expect, rest, hv, hr, he => by
    rw [Value.render, List.cons_append, readOn_mark (by decide) (rfl : mark? 0x7b = some .openObject),
      step_value he _ (by simp), Doc.ofValue, ← Members.ofList_map]
    exact readOn_members members [] context .keyOrEnd rest hv hr (Or.inl rfl)

/-- Behind the items in `before`, kept last first, the others are read to the closing bracket. -/
theorem readOn_items : ∀ (vs : List Value) (before : List Doc) (outer : Context) (expect : Expect)
    (rest : Bytes), ItemsHaveWords vs → Follows rest →
    expect = .itemOrEnd ∨ expect = .value ∧ vs ≠ [] →
    readOn (.within (.inArray before outer) expect) (renderItems vs ++ rest) =
      readOn (outer.deliver (.array (.ofList none (before.reverse ++ vs.map Doc.ofValue)))) rest
  | [], before, outer, expect, rest, _, _, he => by
    obtain rfl : expect = .itemOrEnd := by simpa using he
    rw [renderItems, List.singleton_append,
      readOn_mark (by decide) (rfl : mark? 0x5d = some .closeArray)]
    simp [Reading.step]
  | [v], before, outer, expect, rest, hv, _, he => by
    have hf : Follows (0x5d :: rest) := Or.inr ⟨_, _, rfl, by simp⟩
    rw [renderItems, List.append_assoc, List.singleton_append,
      readOn_value v _ _ _ hv.1 hf (by rcases he with he | he <;> simp [he]), Context.deliver,
      readOn_mark (by decide) (rfl : mark? 0x5d = some .closeArray)]
    simp [Reading.step]
  | v :: w :: vs, before, outer, expect, rest, hv, hr, he => by
    have hf : Follows (0x2c :: (renderItems (w :: vs) ++ rest)) := Or.inr ⟨_, _, rfl, by simp⟩
    rw [renderItems_cons, List.append_assoc, List.cons_append,
      readOn_value v _ _ _ hv.1 hf (by rcases he with he | he <;> simp [he]), Context.deliver,
      readOn_mark (by decide) (rfl : mark? 0x2c = some .comma), Reading.step,
      readOn_items (w :: vs) _ _ _ _ hv.2 hr (Or.inr ⟨rfl, nofun⟩)]
    simp

theorem readOn_members : ∀ (ms : List (String × Value)) (before : List (Doc × Doc)) (outer : Context)
    (expect : Expect) (rest : Bytes), MembersHaveWords ms → Follows rest →
    expect = .keyOrEnd ∨ expect = .key ∧ ms ≠ [] →
    readOn (.within (.inObject before outer) expect) (renderMembers ms ++ rest) =
      readOn (outer.deliver (.object (.ofList none
        (before.reverse ++ ms.map fun m => (.text m.1, .ofValue m.2))))) rest
  | [], before, outer, expect, rest, _, _, he => by
    obtain rfl : expect = .keyOrEnd := by simpa using he
    rw [renderMembers, List.singleton_append,
      readOn_mark (by decide) (rfl : mark? 0x7d = some .closeObject)]
    simp [Reading.step]
  | [(k, v)], before, outer, expect, rest, hv, _, he => by
    have hf : Follows (0x7d :: rest) := Or.inr ⟨_, _, rfl, by simp⟩
    rw [renderMembers, List.append_assoc, List.append_assoc, List.cons_append,
      readOn_key (by rcases he with he | he <;> simp [he]), List.singleton_append,
      readOn_value v _ _ _ hv.1 hf (Or.inl rfl), Context.deliver,
      readOn_mark (by decide) (rfl : mark? 0x7d = some .closeObject)]
    simp [Reading.step]
  | (k, v) :: m :: ms, before, outer, expect, rest, hv, hr, he => by
    have hf : Follows (0x2c :: (renderMembers (m :: ms) ++ rest)) := Or.inr ⟨_, _, rfl, by simp⟩
    rw [renderMembers_cons, List.append_assoc, List.append_assoc, List.cons_append,
      readOn_key (by rcases he with he | he <;> simp [he]), List.cons_append,
      readOn_value v _ _ _ hv.1 hf (Or.inl rfl), Context.deliver,
      readOn_mark (by decide) (rfl : mark? 0x2c = some .comma), Reading.step,
      readOn_members (m :: ms) _ _ _ _ hv.2 hr (Or.inr ⟨rfl, nofun⟩)]
    simp

end

/-- A value is read back from its text, with nothing behind it. -/
theorem read_render {v : Value} (hv : v.HasWords) : read v.render = (Doc.ofValue v, false) := by
  have h := readOn_value v .top .value [] hv (Or.inl rfl) (Or.inl rfl)
  rw [List.append_nil, readOn_nil] at h
  have hread : read v.render = (readOn (.within .top .value) v.render).finish := rfl
  rw [hread, h]
  rfl

theorem decode_render {α : Type} {dec : Decoder α} {v : Value} {a : α} (hv : v.HasWords)
    (h : dec .text (Doc.ofValue v) = .ok a) : decode dec v.render = .ok a := by
  simp [decode, read_render hv, h, Except.bind, bind]

mutual

theorem isText_render : ∀ v : Value, IsText v.render
  | .null => isText_utf8 "null"
  | .boolean true => isText_utf8 "true"
  | .boolean false => isText_utf8 "false"
  | .number (.ofNat n) => isText_renderNat n
  | .number (.negSucc n) => (isText_renderNat (n + 1)).cons (by decide)
  | .text s => isText_renderText s
  | .array items => (isText_renderItems items).cons (by decide)
  | .object members => (isText_renderMembers members).cons (by decide)

theorem isText_renderItems : ∀ vs : List Value, IsText (renderItems vs)
  | [] => isText_of_ascii (by decide)
  | [v] => (isText_render v).append (isText_of_ascii (by decide))
  | v :: w :: vs => by
    rw [renderItems_cons]
    exact (isText_render v).append ((isText_renderItems (w :: vs)).cons (by decide))

theorem isText_renderMembers : ∀ ms : List (String × Value), IsText (renderMembers ms)
  | [] => isText_of_ascii (by decide)
  | [(k, v)] =>
    ((isText_renderText k).append ((isText_render v).cons (by decide))).append
      (isText_of_ascii (by decide))
  | (k, v) :: m :: ms => by
    rw [renderMembers_cons]
    exact ((isText_renderText k).append ((isText_render v).cons (by decide))).append
      ((isText_renderMembers (m :: ms)).cons (by decide))

end

mutual

/-- The text of a value has no control characters. -/
theorem le_of_mem_render : ∀ (v : Value), ∀ b ∈ v.render, (0x20 : UInt8) ≤ b
  | .null => by simp [Value.render]
  | .boolean true => by simp [Value.render]
  | .boolean false => by simp [Value.render]
  | .number (.ofNat n) => le_of_mem_renderNat n
  | .number (.negSucc n) => by
    simpa [Value.render, renderInt] using le_of_mem_renderNat (n + 1)
  | .text s => le_of_mem_renderText s
  | .array items => by simpa [Value.render] using le_of_mem_renderItems items
  | .object members => by simpa [Value.render] using le_of_mem_renderMembers members

theorem le_of_mem_renderItems : ∀ (vs : List Value), ∀ b ∈ renderItems vs, (0x20 : UInt8) ≤ b
  | [] => by simp [renderItems]
  | [v] => List.forall_mem_append.mpr ⟨le_of_mem_render v, by simp⟩
  | v :: w :: vs => by
    rw [renderItems_cons, List.forall_mem_append, List.forall_mem_cons]
    exact ⟨le_of_mem_render v, by decide, le_of_mem_renderItems (w :: vs)⟩

theorem le_of_mem_renderMembers :
    ∀ (ms : List (String × Value)), ∀ b ∈ renderMembers ms, (0x20 : UInt8) ≤ b
  | [] => by simp [renderMembers]
  | [(k, v)] => by
    simp only [renderMembers, List.forall_mem_append, List.forall_mem_cons]
    exact ⟨⟨le_of_mem_renderText k, by decide, le_of_mem_render v⟩, by simp⟩
  | (k, v) :: m :: ms => by
    simp only [renderMembers_cons, List.forall_mem_append, List.forall_mem_cons]
    exact ⟨⟨le_of_mem_renderText k, by decide, le_of_mem_render v⟩, by decide,
      le_of_mem_renderMembers (m :: ms)⟩

end

/-- The text of a value is one line. -/
theorem newline_notMem_render (v : Value) : (0x0a : UInt8) ∉ v.render := fun h =>
  absurd (le_of_mem_render v _ h) (by decide)

theorem getLast?_render_ne_return (v : Value) : v.render.getLast? ≠ some 0x0d := fun h =>
  absurd (le_of_mem_render v _ (List.mem_of_getLast? h)) (by decide)

end LedgerNode.Json
