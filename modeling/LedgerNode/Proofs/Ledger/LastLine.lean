import LedgerNode.Proofs.Json.Strict
import LedgerNode.Proofs.Ledger.Log
import LedgerNode.Proofs.Text.Lines

/-!
Appending to any log that can be read, not only to one that was written record by record.  What is
appended goes on where the last line stops.  So it can be read back exactly where that line holds
nothing, or white space that may stand before a record.
-/
namespace LedgerNode

open Json

section strictness

theorem Digest.isStrict_decoder : Digest.decoder.IsStrict := Decoder.isStrict_parsed _

theorem Account.isStrict_decoder : Account.decoder.IsStrict := Decoder.isStrict_parsed _

theorem Reason.isStrict_decoder : Reason.decoder.IsStrict := Decoder.isStrict_variant _

theorem Transaction.isStrict_decoder : Transaction.decoder.IsStrict := by
  have hword : Decoder.uint64.IsStrict := Decoder.isStrict_map (Decoder.isStrict_naturalBelow _) _
  have hfields : Transaction.fields.AreStrict :=
    ⟨Account.isStrict_decoder, Account.isStrict_decoder, hword, Reason.isStrict_decoder, hword,
      trivial⟩
  exact Decoder.isStrict_map (Fields.isStrict_decoder hfields) _

theorem BlockHeader.isStrict_decoder : BlockHeader.decoder.IsStrict := by
  have hword : Decoder.uint64.IsStrict := Decoder.isStrict_map (Decoder.isStrict_naturalBelow _) _
  have hnonce : Decoder.uint32.IsStrict := Decoder.isStrict_map (Decoder.isStrict_naturalBelow _) _
  have hfields : BlockHeader.fields.AreStrict :=
    ⟨Digest.isStrict_decoder, hword, hnonce, hword, trivial⟩
  exact Decoder.isStrict_map (Fields.isStrict_decoder hfields) _

theorem Block.isStrict_decoder : Block.decoder.IsStrict := by
  have hfields : Block.fields.AreStrict :=
    ⟨BlockHeader.isStrict_decoder, Decoder.isStrict_list Transaction.isStrict_decoder, trivial⟩
  exact Decoder.isStrict_map (Fields.isStrict_decoder hfields) _

theorem Record.areStrict_fields : Record.fields.AreStrict :=
  ⟨Digest.isStrict_decoder, Block.isStrict_decoder, trivial⟩

/-- Behind the text of a record nothing but white space can stand. -/
theorem Record.decode_append {line : Bytes} {r : Record} (h : decode Record.decoder line = .ok r)
    {x : Bytes} (hx : tokens x ≠ []) :
    decode Record.decoder (line ++ x) = .error (.broken .malformed) :=
  Fields.decode_append Record.areStrict_fields h hx

theorem Record.decode_append_return (line : Bytes) :
    decode Record.decoder (line ++ [0x0d]) = decode Record.decoder line ∨
      (∃ cause, decode Record.decoder line = .error cause) ∧
        ∃ cause, decode Record.decoder (line ++ [0x0d]) = .error cause :=
  Fields.decode_append_space Record.areStrict_fields (by decide) line

theorem Record.tokens_render (r : Record) : tokens r.toJson.render ≠ [] := by
  intro h
  have hread := r.reads.decode
  rw [decode, Json.read, h] at hread
  cases hread

end strictness

namespace Text

theorem isBlankText_append (s t : String) :
    isBlankText (s ++ t) = (isBlankText s && isBlankText t) := by
  simp [isBlankText]

theorem isBlankText_of_spaces {line : Bytes} (h : line.all isSpace = true) :
    ∃ s, utf8 s = line ∧ isBlankText s = true := by
  induction line with
  | nil => exact ⟨"", by simp [utf8], rfl⟩
  | cons b line ih =>
    obtain ⟨hb, hline⟩ := (Bool.and_eq_true _ _).mp h
    obtain ⟨s, hs, hblank⟩ := ih hline
    have hone : ∃ t, utf8 t = [b] ∧ isBlankText t = true := by
      simp only [isSpace, Bool.or_eq_true, beq_iff_eq] at hb
      rcases hb with ((rfl | rfl) | rfl) | rfl
      · exact ⟨" ", rfl, rfl⟩
      · exact ⟨"\n", rfl, rfl⟩
      · exact ⟨"\r", rfl, rfl⟩
      · exact ⟨"\t", rfl, rfl⟩
    obtain ⟨t, ht, hblank'⟩ := hone
    exact ⟨t ++ s, by rw [utf8_append, ht, hs, List.singleton_append],
      by rw [isBlankText_append, hblank', hblank]; rfl⟩

/-- No token begins with the byte, and it is no white space between tokens. -/
def IsStray (b : UInt8) : Prop := isSpace b = false ∧ ∀ rest, scanToken b rest = (.stray, [])

theorem isStray_of_le {b : UInt8} (h : 0x80 ≤ b) : IsStray b := by
  have hne (c : UInt8) (hc : c < 0x80) : b ≠ c := by
    rintro rfl
    exact absurd h (by simpa using hc)
  have hdigit : isDigit b = false := by
    have hle : ¬ b ≤ 0x39 := by
      rw [UInt8.le_iff_toNat_le] at h ⊢
      exact Nat.not_le_of_gt (Nat.lt_of_lt_of_le (by decide) h)
    simp [isDigit, hle]
  constructor
  · simp [isSpace, hne]
  · intro rest
    simp [scanToken, mark?, scanWord, hne, hdigit]

/-- A blank character is white space between tokens, or no token begins with it. -/
theorem utf8EncodeChar_of_isBlank {c : Char} (h : isBlank c = true) :
    (∃ b, String.utf8EncodeChar c = [b] ∧ isSpace b = true) ∨
      ∃ b bs, String.utf8EncodeChar c = b :: bs ∧ IsStray b := by
  by_cases hc : c.toNat < 0x80
  · rw [utf8EncodeChar_of_ascii hc]
    have hn : 0x9 ≤ c.toNat ∧ c.toNat ≤ 0xd ∨ c.toNat = 0x20 := by
      simp only [isBlank, Bool.or_eq_true, Bool.and_eq_true, decide_eq_true_eq, beq_iff_eq] at h
      omega
    generalize c.toNat = n at hn
    obtain rfl | rfl | rfl | rfl | rfl | rfl :
        n = 0x9 ∨ n = 0xa ∨ n = 0xb ∨ n = 0xc ∨ n = 0xd ∨ n = 0x20 := by omega
    case inr.inr.inl | inr.inr.inr.inl => exact Or.inr ⟨_, [], rfl, rfl, fun _ => rfl⟩
    all_goals exact Or.inl ⟨_, rfl, rfl⟩
  · right
    obtain ⟨b, bs, hcons⟩ := List.exists_cons_of_ne_nil (String.utf8EncodeChar_ne_nil (c := c))
    have hle := le_of_mem_utf8EncodeChar (c := c) (Nat.le_of_not_lt hc) (b := b) (by simp [hcons])
    exact ⟨b, bs, hcons, isStray_of_le hle⟩

/-- A blank text is white space between tokens as a whole, or up to a byte with which no token
begins. -/
theorem spaces_of_isBlankText {s : String} (h : isBlankText s = true) :
    (utf8 s).all isSpace = true ∨
      ∃ spaces b rest, utf8 s = spaces ++ b :: rest ∧ spaces.all isSpace = true ∧ IsStray b := by
  rw [utf8_eq_flatMap]
  rw [isBlankText] at h
  generalize s.toList = cs at h
  induction cs with
  | nil => exact Or.inl rfl
  | cons c cs ih =>
    obtain ⟨hc, hcs⟩ := (Bool.and_eq_true _ _).mp h
    rw [List.flatMap_cons]
    rcases utf8EncodeChar_of_isBlank hc with ⟨b, hb, hspace⟩ | ⟨b, bs, hb, hstray⟩
    · rw [hb, List.singleton_append]
      rcases ih hcs with hspaces | ⟨spaces, d, rest, heq, hspaces, hstray⟩
      · exact Or.inl (by rw [List.all_cons, hspace, hspaces]; rfl)
      · refine Or.inr ⟨b :: spaces, d, rest, by rw [heq, List.cons_append], ?_, hstray⟩
        rw [List.all_cons, hspace, hspaces]
        rfl
    · exact Or.inr ⟨[], b, _, by rw [hb, List.cons_append, List.nil_append], rfl, hstray⟩

end Text

namespace FileLog

/-- What is appended begins a record: nothing stands before it in its line but white space. -/
def isEnded (content : Bytes) : Bool := (Text.lastLine content).all isSpace

theorem readLine_spaces (n : Nat) {line : Bytes} (h : line.all isSpace = true) :
    readLine n line = none := by
  obtain ⟨s, hs, hblank⟩ := Text.isBlankText_of_spaces h
  have htext : Text.ofUtf8? line = some s := by rw [← hs, Text.ofUtf8?_utf8]
  simp [readLine, htext, hblank]

/-- A line that ends in a record is not blank; what it holds is a matter of decoding. -/
theorem readLine_append_render (n : Nat) {line : Bytes} (hline : Text.IsText line) (r : Record) :
    readLine n (line ++ r.toJson.render) =
      match decode Record.decoder (line ++ r.toJson.render) with
      | .ok r => some (.ok r)
      | .error cause => some (.error (.corruptLog n cause)) := by
  obtain ⟨s, hs⟩ := hline
  obtain ⟨t, ht⟩ := isText_render r.toJson
  have htext : Text.ofUtf8? (line ++ r.toJson.render) = some (s ++ t) := by
    rw [← hs, ← ht, ← Text.utf8_append, Text.ofUtf8?_utf8]
  have hblank : Text.isBlankText (s ++ t) = false := by
    rw [Text.isBlankText_append, not_isBlankText_render ht, Bool.and_false]
  rw [readLine, htext]
  simp only [hblank]
  rfl

theorem readLine_behind_spaces (n : Nat) {line : Bytes} (h : line.all isSpace = true) (r : Record) :
    readLine n (line ++ r.toJson.render) = some (.ok r) := by
  obtain ⟨s, hs, -⟩ := Text.isBlankText_of_spaces h
  rw [readLine_append_render n ⟨s, hs⟩, decode_spaces _ h, r.reads.decode]

/-- Behind a record, and behind blanks that are no white space between tokens, no record can be
read. -/
theorem readLine_behind (n : Nat) {line : Bytes} (hended : line.all isSpace = false)
    (hreadable : ∀ e, readLine n line ≠ some (.error e)) (r : Record) :
    readLine n (line ++ r.toJson.render) = some (.error (.corruptLog n (.broken .malformed))) := by
  cases htext : Text.ofUtf8? line with
  | none => exact absurd (by rw [readLine, htext]) (hreadable (.file .notText))
  | some s =>
    have hs := Text.utf8_of_ofUtf8? htext
    rw [readLine_append_render n ⟨s, hs⟩]
    cases hblank : Text.isBlankText s with
    | true =>
      rcases Text.spaces_of_isBlankText hblank with hspaces | ⟨spaces, b, rest, heq, hspaces, hb⟩
      · rw [hs, hended] at hspaces
        cases hspaces
      · rw [← hs, heq, List.append_assoc, decode_spaces _ hspaces, List.cons_append,
          Record.decoder, Fields.decode_stray hb.1 (hb.2 _)]
    | false =>
      cases hdecode : decode Record.decoder line with
      | error cause =>
        refine absurd ?_ (hreadable (.corruptLog n cause))
        rw [readLine, htext]
        simp only [hblank, hdecode]
        rfl
      | ok first => rw [Record.decode_append hdecode r.tokens_render]

theorem readLines_append (n : Nat) (xs ys : List Bytes) :
    readLines n (xs ++ ys) = readLines n xs ++ readLines (n + xs.length) ys := by
  induction xs generalizing n with
  | nil => rfl
  | cons x xs ih =>
    have hlength : n + 1 + xs.length = n + (x :: xs).length := by
      rw [List.length_cons]
      omega
    rw [List.cons_append, readLines, readLines, ih, hlength]
    cases readLine n x <;> rfl

/-- What is wrong with the last line of a content when it has a record appended to it. -/
def lastLineFault (content : Bytes) : LedgerError :=
  .corruptLog (Text.lines content).length (.broken .malformed)

/-- The line feed behind a record takes nothing of its line with it. -/
theorem dropReturn_append_render (front : Bytes) (r : Record) :
    Text.dropReturn (front ++ r.toJson.render) = front ++ r.toJson.render := by
  have hne : r.toJson.render ≠ [] := fun h => r.tokens_render (by rw [h, tokens])
  exact Text.dropReturn_append front hne (getLast?_render_ne_return r.toJson)

/-- Appended records are read one by one, but for the first, which is read with what stood in the last
line before; the records of the earlier lines stay. -/
theorem entries_append {content : Bytes} {rs : List Record} (h : entries content = rs.map .ok)
    (r : Record) (ss : List Record) :
    ∃ before, before <+: rs ∧ (isEnded content = true → before = rs) ∧
      entries (content ++ (r :: ss).flatMap line) =
        before.map .ok ++ (if isEnded content then .ok r else .error (lastLineFault content)) ::
          ss.map .ok := by
  have hlines := Text.lines_eq_append content
  generalize hinit : (Text.lines content).dropLast = init at hlines
  have hlength : (Text.lines content).length = 1 + init.length := by
    rw [hlines, List.length_append, List.length_singleton, Nat.add_comm]
  have hold : rs.map .ok =
      readLines 1 init ++ (readLine (1 + init.length) (Text.lastLine content)).toList := by
    rw [← h, entries, hlines, readLines_append, readLines, readLines]
    cases readLine (1 + init.length) (Text.lastLine content) <;> rfl
  have hnew : entries (content ++ (r :: ss).flatMap line) = readLines 1 init ++
      (readLine (1 + init.length) (Text.lastLine content ++ r.toJson.render)).toList ++
        ss.map .ok := by
    rw [entries, List.flatMap_cons, line, List.append_assoc, List.singleton_append,
      Text.lines_append_line hlines (newline_notMem_render r.toJson), dropReturn_append_render,
      readLines_append, readLines, readLines_lines]
    cases readLine (1 + init.length) (Text.lastLine content ++ r.toJson.render) <;> simp
  obtain ⟨before, last, rfl, hbefore, hlast⟩ := List.map_eq_append_iff.mp hold
  refine ⟨before, List.prefix_append before last, fun hended => ?_, ?_⟩
  · rw [readLine_spaces _ hended] at hlast
    rw [List.map_eq_nil_iff.mp hlast, List.append_nil]
  · rw [hnew, hbefore, lastLineFault]
    cases hended : isEnded content with
    | true =>
      rw [readLine_behind_spaces _ hended]
      simp
    | false =>
      have hreadable : ∀ e, readLine (1 + init.length) (Text.lastLine content) ≠ some (.error e) := by
        intro e he
        rw [he] at hlast
        obtain ⟨x, -, hx⟩ := List.map_eq_singleton_iff.mp hlast
        cases hx
      rw [readLine_behind _ hended hreadable, hlength]
      simp

/-- A record whose line does not end is read like any other, but nothing can follow it. -/
theorem entries_render (r : Record) : entries r.toJson.render = [.ok r] := by
  rw [entries, Text.lines_of_notMem (newline_notMem_render r.toJson), readLines, readLine_render]
  rfl

theorem isEnded_render (r : Record) : isEnded r.toJson.render = false := by
  simp only [isEnded, Text.lastLine, Text.lines_of_notMem (newline_notMem_render r.toJson)]
  rfl

/-- Every record that is appended ends its line. -/
theorem isEnded_append_line (content : Bytes) (r : Record) :
    isEnded (content ++ line r) = true := by
  have hlines := Text.lines_append_line (Text.lines_eq_append content)
    (newline_notMem_render r.toJson) []
  simp only [isEnded, Text.lastLine, line, hlines, Text.lines_of_notMem List.not_mem_nil]
  simp

/-- Entries can all be read, or up to one that cannot. -/
theorem entries_cases (es : List (Except LedgerError Record)) :
    (∃ rs : List Record, es = rs.map .ok) ∨
      ∃ (before : List Record) (e : LedgerError) (rest : List (Except LedgerError Record)),
        es = before.map .ok ++ .error e :: rest := by
  induction es with
  | nil => exact Or.inl ⟨[], rfl⟩
  | cons entry es ih =>
    cases entry with
    | error e => exact Or.inr ⟨[], e, es, rfl⟩
    | ok r =>
      rcases ih with ⟨rs, rfl⟩ | ⟨before, e, rest, rfl⟩
      · exact Or.inl ⟨r :: rs, rfl⟩
      · exact Or.inr ⟨r :: before, e, rest, rfl⟩

theorem records_unreadable {log : FileLog} {before : List Record} {e : LedgerError}
    {rest : List (Except LedgerError Record)}
    (h : entries log.content = before.map .ok ++ .error e :: rest) : records log = .error e := by
  rw [records, h]
  clear h
  induction before with
  | nil => rfl
  | cons r before ih =>
    rw [List.map_cons, List.cons_append, List.mapM_cons, ih]
    rfl

theorem records_eq_ok_iff {log : FileLog} {rs : List Record} :
    records log = .ok rs ↔ entries log.content = rs.map .ok := by
  refine ⟨fun h => ?_, records_of_entries⟩
  rcases entries_cases (entries log.content) with ⟨ss, hss⟩ | ⟨before, e, rest, hbroken⟩
  · rw [records_of_entries hss] at h
    cases h
    exact hss
  · rw [records_unreadable hbroken] at h
    cases h

/-- Visiting comes to an entry that cannot be read, unless it stops before. -/
theorem foldEntries_unreadable {σ : Type} (visit : σ → Record → Except LedgerError σ) (s : σ)
    {content : Bytes} {before : List Record} {e : LedgerError}
    {rest : List (Except LedgerError Record)}
    (h : entries content = before.map .ok ++ .error e :: rest) :
    foldEntries visit s content = (before.foldlM visit s).bind fun _ => .error e := by
  rw [foldEntries, h, List.foldlM_append, List.foldlM_map]
  rfl

/-- Where all entries are visited, all of them can be read. -/
theorem entries_of_foldEntries {σ : Type} {visit : σ → Record → Except LedgerError σ} {s t : σ}
    {content : Bytes} (h : foldEntries visit s content = .ok t) :
    ∃ rs : List Record, entries content = rs.map .ok := by
  rcases entries_cases (entries content) with hread | ⟨before, e, rest, hbroken⟩
  · exact hread
  · rw [foldEntries_unreadable visit s hbroken] at h
    cases hbefore : before.foldlM visit s <;> simp [hbefore, Except.bind] at h

end FileLog
end LedgerNode
