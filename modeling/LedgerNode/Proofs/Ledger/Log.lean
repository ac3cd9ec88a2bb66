import LedgerNode.BlockLog
import LedgerNode.Proofs.Block.Codec
import LedgerNode.Proofs.Text.Lines

/-!
What a log holds.  The lines of a file are read back as the records they were written from, so a
file that is only ever appended to is as good as a list of records.
-/
namespace LedgerNode

/-- A log whose growth may be bounded anew. -/
class BoundedLog (L : Type) extends BlockLog L where
  bounded : L → SizeLimit → L

/-- A log that is as good as a list of records: appending adds the record at the end, or fails and
changes nothing. -/
class LawfulLog (L : Type) extends BoundedLog L where
  Holds : L → List Record → Prop
  records_eq {log : L} {rs : List Record} : Holds log rs → records log = .ok rs
  holds_append {log log' : L} {rs : List Record} {r : Record} :
    Holds log rs → append log r = (.ok (), log') → Holds log' (rs ++ [r])
  eq_of_refused {log log' : L} {r : Record} {e : LedgerError} :
    append log r = (.error e, log') → log' = log
  holds_bounded {log : L} {rs : List Record} (limit : SizeLimit) :
    Holds log rs → Holds (bounded log limit) rs

instance : BoundedLog MemoryLog where
  bounded log _ := log

instance : LawfulLog MemoryLog where
  Holds log rs := log.records = rs
  records_eq := by rintro log rs rfl; rfl
  holds_append := by rintro log log' rs r rfl h; cases h; rfl
  eq_of_refused := nofun
  holds_bounded _ h := h

namespace Record

@[simp] theorem after_zero (rs : List Record) : after .zero rs = rs := if_pos (by decide)

theorem after_cons {start : Digest} (hstart : start ≠ .zero) (r : Record) (rs : List Record) :
    after start (r :: rs) = if r.digest = start then rs else after start rs := by
  by_cases hr : r.digest = start <;> simp [after, Digest.isZero, hstart, hr]

/-- What stands behind the first record of a digest. -/
theorem after_append {start : Digest} (hstart : start ≠ .zero) {before : List Record}
    (hbefore : ∀ s ∈ before, s.digest ≠ start) {r : Record} (hr : r.digest = start)
    (rest : List Record) : after start (before ++ r :: rest) = rest := by
  induction before with
  | nil => rw [List.nil_append, after_cons hstart, if_pos hr]
  | cons s before ih =>
    obtain ⟨hs, hbefore⟩ := List.forall_mem_cons.mp hbefore
    rw [List.cons_append, after_cons hstart, if_neg hs, ih hbefore]

end Record

namespace FileLog

/-- The text of a record begins with a brace, which is not blank. -/
theorem not_isBlankText_render {r : Record} {s : String} (h : Text.utf8 s = r.toJson.render) :
    Text.isBlankText s = false := by
  have hhead := Text.toList_of_utf8_cons (by decide : (0x7b : UInt8) < 0x80) h
  obtain ⟨cs, hcs⟩ := List.head?_eq_some_iff.mp hhead
  rw [Text.isBlankText, hcs, List.all_cons]
  rfl

theorem readLine_render (n : Nat) (r : Record) : readLine n r.toJson.render = some (.ok r) := by
  obtain ⟨s, hs⟩ := Json.isText_render r.toJson
  have htext : Text.ofUtf8? r.toJson.render = some s := by rw [← hs, Text.ofUtf8?_utf8]
  simp [readLine, htext, not_isBlankText_render hs, r.reads.decode]

theorem readLine_nil (n : Nat) : readLine n [] = none := by
  have htext : Text.ofUtf8? [] = some "" := by
    have h := Text.ofUtf8?_utf8 ""
    rwa [show Text.utf8 "" = [] by simp [Text.utf8]] at h
  simp [readLine, htext, Text.isBlankText]

/-- The text of a record is a line as it stands. -/
theorem lines_line (r : Record) (rest : Bytes) :
    Text.lines (line r ++ rest) = r.toJson.render :: Text.lines rest := by
  rw [line, List.append_assoc, List.singleton_append,
    Text.lines_append_newline (Json.newline_notMem_render r.toJson),
    Text.dropReturn_of_getLast? (Json.getLast?_render_ne_return r.toJson)]

theorem readLines_line (n : Nat) (r : Record) (rest : Bytes) :
    readLines n (Text.lines (line r ++ rest)) = .ok r :: readLines (n + 1) (Text.lines rest) := by
  rw [lines_line, readLines, readLine_render]

theorem readLines_lines (n : Nat) (rs : List Record) :
    readLines n (Text.lines (rs.flatMap line)) = rs.map .ok := by
  induction rs generalizing n with
  | nil => rw [List.flatMap_nil, Text.lines_of_notMem List.not_mem_nil, readLines, readLine_nil]; rfl
  | cons r rs ih => rw [List.flatMap_cons, readLines_line, ih, List.map_cons]

/-- What was written line by line is read back. -/
theorem entries_lines (rs : List Record) : entries (rs.flatMap line) = rs.map .ok :=
  readLines_lines 1 rs

theorem records_of_entries {log : FileLog} {rs : List Record}
    (h : entries log.content = rs.map .ok) : records log = .ok rs := by
  rw [records, h]
  clear h
  induction rs with
  | nil => rfl
  | cons r rs ih =>
    rw [List.map_cons, List.mapM_cons, ih]
    rfl

theorem records_lines (rs : List Record) (limit : SizeLimit) :
    records ⟨rs.flatMap line, limit⟩ = .ok rs :=
  records_of_entries (entries_lines rs)

theorem foldEntries_of_entries {σ : Type} (visit : σ → Record → Except LedgerError σ) (s : σ)
    {content : Bytes} {rs : List Record} (h : entries content = rs.map .ok) :
    foldEntries visit s content = rs.foldlM visit s := by
  rw [foldEntries, h, List.foldlM_map]
  rfl

/-- Appending writes the whole line, or leaves the log as it was. -/
theorem append_cases (log : FileLog) (r : Record) :
    append log r = (.ok (), { log with content := log.content ++ line r }) ∨
      append log r = (.error (.file .tooLarge), log) := by
  cases hroom : (log.limit.behind log.content.length).admits (line r).length with
  | true =>
    left
    simp [append, write, hroom, SizeLimit.cut_eq_self hroom]
  | false =>
    right
    simp [append, write, hroom, truncate]

theorem append_unlimited (content : Bytes) (r : Record) :
    append ⟨content, none⟩ r = (.ok (), ⟨content ++ line r, none⟩) := by
  simp [append, write, SizeLimit.behind, SizeLimit.admits, SizeLimit.cut]

end FileLog

instance : BoundedLog FileLog where
  bounded log limit := { log with limit }

instance : LawfulLog FileLog where
  Holds log rs := log.content = rs.flatMap FileLog.line
  records_eq := by
    rintro ⟨content, limit⟩ rs rfl
    exact FileLog.records_lines rs limit
  holds_append := by
    intro log log' rs r hlog h
    rcases log.append_cases r with hr | hr <;> cases hr.symm.trans h
    simp [hlog]
  eq_of_refused := by
    intro log log' r e h
    rcases log.append_cases r with hr | hr <;> cases hr.symm.trans h
    rfl
  holds_bounded _ h := h

/-- A log that takes every record while nothing bounds it. -/
class GrowingLog (L : Type) extends LawfulLog L where
  bounded_bounded (log : L) (limit limit' : SizeLimit) :
    bounded (bounded log limit) limit' = bounded log limit'
  append_unbounded (log : L) (r : Record) :
    ∃ log', append (bounded log none) r = (.ok (), log') ∧ bounded log' none = log'

instance : GrowingLog MemoryLog where
  bounded_bounded _ _ _ := rfl
  append_unbounded _ _ := ⟨_, rfl, rfl⟩

instance : GrowingLog FileLog where
  bounded_bounded _ _ _ := rfl
  append_unbounded log r := ⟨_, FileLog.append_unlimited log.content r, rfl⟩

end LedgerNode
