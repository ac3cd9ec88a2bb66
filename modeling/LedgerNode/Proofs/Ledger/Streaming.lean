import LedgerNode.Proofs.Ledger.Continuation

/-!
Loading a log line by line.  A line is blank, or it holds a record, or it is neither; blank lines are
passed over, records are replayed, and the first line that is neither ends the loading, unless a record
before it already does not apply.  So a log may be cut at the end of any line, and blank lines count for
nothing but the numbers of the lines behind them.
-/
namespace LedgerNode

namespace LedgerError

/-- The error with another number for the line that it names. -/
def renumber (f : Nat → Nat) : LedgerError → LedgerError
  | corruptLog line cause => corruptLog (f line) cause
  | e => e

end LedgerError

/-- Only reading a log yields errors that name a line. -/
theorem Balances.renumber_of_apply {b : Balances} {tx : Transaction} {e : LedgerError}
    (h : b.apply tx = .error e) (f : Nat → Nat) : e.renumber f = e := by
  unfold apply credit at h
  split at h
  · split at h
    · cases h
      rfl
    · split at h
      · cases h
      · cases h
        rfl
  · split at h
    · cases h
      rfl
    · split at h
      · cases h
      · split at h
        · cases h
        · cases h
          rfl

namespace Snapshot

theorem renumber_of_applyAll {s : Snapshot} {txs : List Transaction} {e : LedgerError}
    (h : s.applyAll txs = .error e) (f : Nat → Nat) : e.renumber f = e := by
  induction txs generalizing s with
  | nil => cases h
  | cons tx txs ih =>
    rw [applyAll_cons] at h
    cases hs : s.apply tx with
    | ok t =>
      rw [hs] at h
      exact ih h
    | error e' =>
      rw [hs] at h
      cases h
      rw [apply] at hs
      cases hb : s.balances.apply tx with
      | ok b =>
        rw [hb] at hs
        cases hs
      | error e'' =>
        rw [hb] at hs
        cases hs
        exact Balances.renumber_of_apply hb f

theorem replay_eq_error_iff {s : Snapshot} {r : Record} {e : LedgerError} :
    s.replay r = .error e ↔ s.applyAll r.block.transactions = .error e := by
  rw [replay]
  cases s.applyAll r.block.transactions <;> simp [Except.map]

theorem renumber_of_replay {s : Snapshot} {r : Record} {e : LedgerError}
    (h : s.replay r = .error e) (f : Nat → Nat) : e.renumber f = e :=
  renumber_of_applyAll (replay_eq_error_iff.mp h) f

end Snapshot

/-- What a line of a log holds, wherever it stands. -/
inductive LineContent where
  | blank
  | record (r : Record)
  /-- It is text, but no record. -/
  | foreign (cause : Json.Error)
  | notText

namespace LineContent

open Json FileLog

def ofLine (line : Bytes) : LineContent :=
  match Text.ofUtf8? line with
  | none => notText
  | some text =>
    if Text.isBlankText text then blank
    else match decode Record.decoder line with
      | .ok r => record r
      | .error cause => foreign cause

/-- What the line is read as where it has the number `n`. -/
def entryAt? (n : Nat) : LineContent → Option (Except LedgerError Record)
  | blank => none
  | record r => some (.ok r)
  | foreign cause => some (.error (.corruptLog n cause))
  | notText => some (.error (.file .notText))

def isBlank : LineContent → Bool
  | blank => true
  | _ => false

theorem readLine_eq (n : Nat) (line : Bytes) : readLine n line = (ofLine line).entryAt? n := by
  unfold ofLine readLine
  cases Text.ofUtf8? line with
  | none => rfl
  | some text =>
    simp only
    split
    · rfl
    · cases decode Record.decoder line <;> rfl

theorem ofLine_ne_notText {line : Bytes} (h : Text.IsText line) : ofLine line ≠ notText := by
  obtain ⟨text, rfl⟩ := h
  rw [ofLine, Text.ofUtf8?_utf8]
  simp only
  split
  · nofun
  · cases decode Record.decoder (Text.utf8 text) <;> nofun

theorem ofLine_render (r : Record) : ofLine r.toJson.render = record r := by
  have h := readLine_eq 0 r.toJson.render
  rw [readLine_render] at h
  cases hline : ofLine r.toJson.render with
  | record r' =>
    rw [hline] at h
    cases h
    rfl
  | blank | foreign cause | notText =>
    rw [hline] at h
    cases h

theorem ofLine_of_spaces {line : Bytes} (h : line.all isSpace = true) : ofLine line = blank := by
  have hread := readLine_eq 0 line
  rw [readLine_spaces 0 h] at hread
  cases hline : ofLine line with
  | blank => rfl
  | record r | foreign cause | notText =>
    rw [hline] at hread
    cases hread

/-- A carriage return at its end changes nothing in what a line holds; where it holds no record, it may
be for another cause. -/
theorem ofLine_append_return (line : Bytes) :
    ofLine (line ++ [0x0d]) = ofLine line ∨
      ∃ cause cause', ofLine line = foreign cause ∧ ofLine (line ++ [0x0d]) = foreign cause' := by
  cases htext : Text.ofUtf8? line with
  | none =>
    left
    cases htext' : Text.ofUtf8? (line ++ [0x0d]) with
    | none => rw [ofLine, ofLine, htext, htext']
    | some s =>
      have hline : Text.IsText (line ++ [0x0d]) := ⟨s, Text.utf8_of_ofUtf8? htext'⟩
      obtain ⟨t, ht⟩ := hline.of_append (by decide)
      rw [← ht, Text.ofUtf8?_utf8] at htext
      cases htext
  | some s =>
    have hs := Text.utf8_of_ofUtf8? htext
    have htext' : Text.ofUtf8? (line ++ [0x0d]) = some (s ++ "\r") := by
      rw [← hs, show ([0x0d] : Bytes) = Text.utf8 "\r" from rfl, ← Text.utf8_append,
        Text.ofUtf8?_utf8]
    have hblank : Text.isBlankText (s ++ "\r") = Text.isBlankText s := by
      rw [Text.isBlankText_append, show Text.isBlankText "\r" = true from rfl, Bool.and_true]
    simp only [ofLine, htext, htext', hblank]
    split
    · exact Or.inl rfl
    · rcases Record.decode_append_return line with hsame | ⟨⟨cause, hcause⟩, cause', hcause'⟩
      · exact Or.inl (by rw [hsame])
      · exact Or.inr ⟨cause, cause', by rw [hcause], by rw [hcause']⟩

theorem ofLine_dropReturn {line : Bytes} (h : ofLine line = blank) :
    ofLine (Text.dropReturn line) = blank := by
  by_cases hlast : line.getLast? = some 0x0d
  · obtain ⟨front, rfl⟩ := List.getLast?_eq_some_iff.mp hlast
    rw [Text.dropReturn_concat]
    rcases ofLine_append_return front with hsame | ⟨cause, cause', -, hcause'⟩
    · rwa [← hsame]
    · rw [h] at hcause'
      cases hcause'
  · rwa [Text.dropReturn_of_getLast? hlast]

end LineContent

open LineContent (ofLine)

/-- Every line is blank or holds a record, and these are the records in order. -/
inductive FileLog.Hold : List Bytes → List Record → Prop
  | nil : Hold [] []
  | blank {line : Bytes} {lines : List Bytes} {rs : List Record} (hline : ofLine line = .blank)
      (hrest : Hold lines rs) : Hold (line :: lines) rs
  | record {line : Bytes} {r : Record} {lines : List Bytes} {rs : List Record}
      (hline : ofLine line = .record r) (hrest : Hold lines rs) : Hold (line :: lines) (r :: rs)

theorem FileLog.Hold.readLines_eq {lines : List Bytes} {rs : List Record} (h : Hold lines rs)
    (n : Nat) : readLines n lines = rs.map .ok := by
  induction h generalizing n with
  | nil => rfl
  | blank hline _ ih => rw [readLines, LineContent.readLine_eq, hline, LineContent.entryAt?, ih]
  | record hline _ ih =>
    rw [readLines, LineContent.readLine_eq, hline, LineContent.entryAt?, ih]
    rfl

namespace Snapshot

open FileLog

/-- What the lines lead to, where the first has the number `n`. -/
def replayLines (s : Snapshot) (n : Nat) (lines : List Bytes) : Except LedgerError Snapshot :=
  (readLines n lines).foldlM (fun s entry => entry.bind s.replay) s

variable {s : Snapshot} {n : Nat} {line : Bytes} {lines : List Bytes}

theorem replayLines_cons (s : Snapshot) (n : Nat) (line : Bytes) (lines : List Bytes) :
    s.replayLines n (line :: lines) =
      match ofLine line with
      | .blank => s.replayLines (n + 1) lines
      | .record r => (s.replay r).bind fun t => t.replayLines (n + 1) lines
      | .foreign cause => .error (.corruptLog n cause)
      | .notText => .error (.file .notText) := by
  rw [replayLines, readLines, LineContent.readLine_eq]
  cases ofLine line <;> rfl

theorem replayLines_append (s : Snapshot) (n : Nat) (lines rest : List Bytes) :
    s.replayLines n (lines ++ rest) =
      (s.replayLines n lines).bind fun t => t.replayLines (n + lines.length) rest := by
  rw [replayLines, readLines_append, List.foldlM_append]
  rfl

theorem replayLines_of_hold {rs : List Record} (h : Hold lines rs) (s : Snapshot) (n : Nat) :
    s.replayLines n lines = rs.foldlM replay s := by
  rw [replayLines, h.readLines_eq, List.foldlM_map]
  rfl

/-- The line at which loading stops, and with which error. -/
inductive StopsAt (s : Snapshot) (n : Nat) (line : Bytes) : LedgerError → Prop
  | refused {r : Record} {e : LedgerError} (hline : ofLine line = .record r)
      (hr : s.replay r = .error e) : StopsAt s n line e
  | foreign {cause : Json.Error} (hline : ofLine line = .foreign cause) :
      StopsAt s n line (.corruptLog n cause)
  | notText (hline : ofLine line = .notText) : StopsAt s n line (.file .notText)

theorem StopsAt.replayLines_eq {e : LedgerError} (h : s.StopsAt n line e) (rest : List Bytes) :
    s.replayLines n (line :: rest) = .error e := by
  rw [replayLines_cons]
  cases h with
  | refused hline hr =>
    simp only [hline, hr]
    rfl
  | foreign hline => rw [hline]
  | notText hline => rw [hline]

/-- Loading comes to the end of the lines, or it stops at one of them. -/
theorem replayLines_cases (s : Snapshot) (n : Nat) (lines : List Bytes) :
    (∃ rs t, Hold lines rs ∧ rs.foldlM replay s = .ok t) ∨
    ∃ before line rest rs t e, lines = before ++ line :: rest ∧ Hold before rs ∧
      rs.foldlM replay s = .ok t ∧ t.StopsAt (n + before.length) line e := by
  induction lines generalizing s n with
  | nil => exact Or.inl ⟨[], s, .nil, rfl⟩
  | cons line lines ih =>
    cases hline : ofLine line with
    | blank =>
      rcases ih s (n + 1) with ⟨rs, t, hrs, ht⟩ | ⟨before, stop, rest, rs, t, e, rfl, hrs, ht, hstop⟩
      · exact Or.inl ⟨rs, t, .blank hline hrs, ht⟩
      · refine Or.inr ⟨line :: before, stop, rest, rs, t, e, rfl, .blank hline hrs, ht, ?_⟩
        rwa [List.length_cons, ← Nat.add_assoc, Nat.add_right_comm]
    | record r =>
      cases hr : s.replay r with
      | error e => exact Or.inr ⟨[], line, lines, [], s, e, rfl, .nil, rfl, .refused hline hr⟩
      | ok u =>
        have hfold {rs t} (ht : rs.foldlM replay u = .ok t) : (r :: rs).foldlM replay s = .ok t := by
          rw [List.foldlM_cons, hr]
          exact ht
        rcases ih u (n + 1) with
          ⟨rs, t, hrs, ht⟩ | ⟨before, stop, rest, rs, t, e, rfl, hrs, ht, hstop⟩
        · exact Or.inl ⟨r :: rs, t, .record hline hrs, hfold ht⟩
        · refine Or.inr
            ⟨line :: before, stop, rest, r :: rs, t, e, rfl, .record hline hrs, hfold ht, ?_⟩
          rwa [List.length_cons, ← Nat.add_assoc, Nat.add_right_comm]
    | foreign cause =>
      exact Or.inr ⟨[], line, lines, [], s, _, rfl, .nil, rfl, .foreign hline⟩
    | notText => exact Or.inr ⟨[], line, lines, [], s, _, rfl, .nil, rfl, .notText hline⟩

theorem replayLines_of_stopsAt {before rest : List Bytes} {rs : List Record} {t : Snapshot}
    {e : LedgerError} (hrs : Hold before rs) (ht : rs.foldlM replay s = .ok t)
    (hstop : t.StopsAt (n + before.length) line e) :
    s.replayLines n (before ++ line :: rest) = .error e := by
  rw [replayLines_append, replayLines_of_hold hrs, ht]
  exact hstop.replayLines_eq rest

theorem replayLines_eq_error_iff {e : LedgerError} :
    s.replayLines n lines = .error e ↔
      ∃ before line rest rs t, lines = before ++ line :: rest ∧ Hold before rs ∧
        rs.foldlM replay s = .ok t ∧ t.StopsAt (n + before.length) line e := by
  constructor
  · intro h
    rcases s.replayLines_cases n lines with
      ⟨rs, u, hrs, hu⟩ | ⟨before, line, rest, rs, u, e', rfl, hrs, hu, hstop⟩
    · rw [replayLines_of_hold hrs, hu] at h
      cases h
    · rw [replayLines_of_stopsAt hrs hu hstop] at h
      cases h
      exact ⟨before, line, rest, rs, u, rfl, hrs, hu, hstop⟩
  · rintro ⟨before, line, rest, rs, t, rfl, hrs, ht, hstop⟩
    exact replayLines_of_stopsAt hrs ht hstop

/-- A blank line behind the last one changes nothing, and neither does a carriage return at the end of
that one, unless it holds no record. -/
theorem replayLines_append_blank {blank line' : Bytes} (hblank : ofLine blank = .blank)
    (h : ofLine line' = ofLine line) (s : Snapshot) (n : Nat) (before : List Bytes) :
    s.replayLines n (before ++ [line', blank]) = s.replayLines n (before ++ [line]) := by
  rw [replayLines_append, replayLines_append]
  cases s.replayLines n before with
  | error e => rfl
  | ok t =>
    have hend u m : replayLines u m [blank] = replayLines u m [] := by
      rw [replayLines_cons, hblank]
      rfl
    simp only [Except.bind, replayLines_cons _ _ line', replayLines_cons _ _ line, h, hend]

/-- Where two lines hold no records, the same error is reported of both, but for its cause. -/
theorem replayLines_foreign {line' : Bytes} {cause cause' : Json.Error}
    (hline : ofLine line = .foreign cause) (hline' : ofLine line' = .foreign cause') (s : Snapshot)
    (n : Nat) (before rest rest' : List Bytes) :
    s.replayLines n (before ++ line :: rest) = s.replayLines n (before ++ line' :: rest') ∨
      ∃ m, s.replayLines n (before ++ line :: rest) = .error (.corruptLog m cause) ∧
        s.replayLines n (before ++ line' :: rest') = .error (.corruptLog m cause') := by
  rw [replayLines_append, replayLines_append]
  cases s.replayLines n before with
  | error e => exact Or.inl rfl
  | ok t =>
    right
    simp only [Except.bind, replayLines_cons, hline, hline']
    exact ⟨_, rfl, rfl⟩

/-- Lines that stand further down are read the same, but for their numbers. -/
theorem replayLines_add (s : Snapshot) (n k : Nat) (lines : List Bytes) :
    s.replayLines (n + k) lines = (s.replayLines n lines).mapError (·.renumber (· + k)) := by
  induction lines generalizing s n with
  | nil => rfl
  | cons line lines ih =>
    rw [replayLines_cons, replayLines_cons, Nat.add_right_comm]
    cases ofLine line with
    | blank => exact ih s (n + 1)
    | record r =>
      simp only
      cases hr : s.replay r with
      | ok t => exact ih t (n + 1)
      | error e => exact congrArg Except.error (renumber_of_replay hr _).symm
    | foreign cause => rfl
    | notText => rfl

/-- Blank lines count for the numbers of lines only. -/
theorem replayLines_filter (s : Snapshot) (n m : Nat) (lines : List Bytes) :
    (s.replayLines n lines).mapError (·.renumber fun _ => 0) =
      (s.replayLines m (lines.filter fun line => !(ofLine line).isBlank)).mapError
        (·.renumber fun _ => 0) := by
  induction lines generalizing s n m with
  | nil => rfl
  | cons line lines ih =>
    rw [List.filter_cons, replayLines_cons]
    cases hline : ofLine line with
    | blank => exact ih s (n + 1) m
    | record r =>
      simp only [LineContent.isBlank, Bool.not_false, if_true, replayLines_cons, hline]
      cases s.replay r with
      | ok t => exact ih t (n + 1) (m + 1)
      | error e => rfl
    | foreign cause =>
      simp only [LineContent.isBlank, Bool.not_false, if_true, replayLines_cons, hline]
      rfl
    | notText =>
      simp only [LineContent.isBlank, Bool.not_false, if_true, replayLines_cons, hline]

end Snapshot

namespace FileLog

theorem isText_line (r : Record) : Text.IsText (line r) :=
  (Json.isText_render r.toJson).append (Text.isText_of_ascii (by decide))

/-- The lines of a log that are not blank. -/
def writtenLines (content : Bytes) : List Bytes :=
  (Text.lines content).filter fun line => !(ofLine line).isBlank

theorem writtenLines_insert {first blank : Bytes} (h : Text.EndsLine first)
    (hnewline : (0x0a : UInt8) ∉ blank) (hblank : ofLine blank = .blank) (second : Bytes) :
    writtenLines (first ++ (blank ++ 0x0a :: second)) = writtenLines (first ++ second) := by
  obtain ⟨before, hlines⟩ := Text.lines_append_of_endsLine h
  rw [writtenLines, writtenLines, hlines, hlines, Text.lines_append_newline hnewline,
    List.filter_append, List.filter_append, List.filter_cons, LineContent.ofLine_dropReturn hblank]
  rfl

end FileLog

namespace Ledger

open FileLog

/-- A log may be cut at the end of any line: what stands behind is replayed on top of what stands
before. -/
theorem replayLog_append {first : Bytes} (h : Text.EndsLine first) (s : Snapshot) (second : Bytes) :
    replayLog s (first ++ second) =
      (replayLog s first).bind fun t =>
        (replayLog t second).mapError (·.renumber (· + first.count 0x0a)) := by
  obtain ⟨before, hlines⟩ := Text.lines_append_of_endsLine h
  have hfirst : Text.lines first = before ++ [[]] := by
    simpa [Text.lines_of_notMem] using hlines []
  have hlength : before.length = first.count 0x0a := by
    simpa [hfirst] using Text.length_lines first
  have hs : replayLog s first = s.replayLines 1 before := by
    change s.replayLines 1 (Text.lines first) = _
    rw [hfirst, Snapshot.replayLines_append]
    cases s.replayLines 1 before with
    | error e => rfl
    | ok t =>
      change t.replayLines (1 + before.length) [[]] = _
      rw [Snapshot.replayLines, readLines, readLine_nil]
      rfl
  change s.replayLines 1 (Text.lines (first ++ second)) = _
  rw [hlines, Snapshot.replayLines_append, hs, hlength]
  exact congrArg _ (funext fun t => t.replayLines_add 1 _ _)

theorem replayLog_eq_ok_iff {s t : Snapshot} {content : Bytes} (limit : SizeLimit) :
    replayLog s content = .ok t ↔
      ∃ rs, FileLog.records ⟨content, limit⟩ = .ok rs ∧ rs.foldlM Snapshot.replay s = .ok t := by
  simp only [records_eq_ok_iff]
  constructor
  · intro h
    obtain ⟨rs, hrs⟩ := entries_of_foldEntries h
    rw [replayLog, foldEntries_of_entries _ _ hrs] at h
    exact ⟨rs, hrs, h⟩
  · rintro ⟨rs, hrs, h⟩
    rw [replayLog, foldEntries_of_entries _ _ hrs]
    exact h

theorem replayLog_of_writtenLines {x y : Bytes} (h : writtenLines x = writtenLines y) (s : Snapshot) :
    (replayLog s x).mapError (·.renumber fun _ => 0) =
      (replayLog s y).mapError (·.renumber fun _ => 0) := by
  have hx := s.replayLines_filter 1 1 (Text.lines x)
  have hy := s.replayLines_filter 1 1 (Text.lines y)
  exact hx.trans ((congrArg (fun lines => (s.replayLines 1 lines).mapError _) h).trans hy.symm)

/-- A blank line behind the last line changes nothing, unless that one holds no record and ends in a
carriage return: this now belongs to the end of the line, so it may be no record for another cause. -/
theorem replayLog_append_blank {blank : Bytes} (hnewline : (0x0a : UInt8) ∉ blank)
    (hblank : ofLine blank = .blank) (s : Snapshot) (content : Bytes) :
    replayLog s (content ++ 0x0a :: blank) = replayLog s content ∨
      content.getLast? = some 0x0d ∧ ∃ n cause cause',
        replayLog s content = .error (.corruptLog n cause) ∧
          replayLog s (content ++ 0x0a :: blank) = .error (.corruptLog n cause') := by
  change s.replayLines 1 (Text.lines (content ++ 0x0a :: blank)) =
    s.replayLines 1 (Text.lines content) ∨ _ ∧ ∃ n cause cause',
      s.replayLines 1 (Text.lines content) = _ ∧
        s.replayLines 1 (Text.lines (content ++ 0x0a :: blank)) = _
  by_cases hreturn : content.getLast? = some 0x0d
  · obtain ⟨front, rfl⟩ := List.getLast?_eq_some_iff.mp hreturn
    have hone : (0x0a : UInt8) ∉ ([0x0d] : Bytes) := by decide
    have hcontent := Text.lines_append_of_notMem (Text.lines_eq_append front) hone
    have hended := Text.lines_append_end hcontent blank
    rw [Text.dropReturn_concat, Text.lines_of_notMem hnewline] at hended
    rw [hcontent, hended]
    rcases LineContent.ofLine_append_return (Text.lastLine front) with
      hsame | ⟨cause, cause', hline, hline'⟩
    · exact Or.inl (Snapshot.replayLines_append_blank hblank hsame.symm _ _ _)
    · rcases Snapshot.replayLines_foreign hline' hline s 1 (Text.lines front).dropLast [] [blank] with
        hequal | ⟨m, herror, herror'⟩
      · exact Or.inl hequal.symm
      · exact Or.inr ⟨hreturn, m, cause', cause, herror, herror'⟩
  · rw [Text.lines_append_newline_append hreturn, Text.lines_of_notMem hnewline]
    left
    rw [Text.lines_eq_append content, List.append_assoc, List.singleton_append]
    exact Snapshot.replayLines_append_blank hblank rfl _ _ _

theorem replayLog_eq_corruptLog_iff {s : Snapshot} {content : Bytes} {n : Nat} {cause : Json.Error} :
    replayLog s content = .error (.corruptLog n cause) ↔
      ∃ before line rest rs t, Text.lines content = before ++ line :: rest ∧
        n = before.length + 1 ∧ Hold before rs ∧ rs.foldlM Snapshot.replay s = .ok t ∧
        ofLine line = .foreign cause := by
  change s.replayLines 1 (Text.lines content) = _ ↔ _
  rw [Snapshot.replayLines_eq_error_iff]
  constructor
  · rintro ⟨before, line, rest, rs, t, hlines, hrs, ht, hstop⟩
    generalize he : LedgerError.corruptLog n cause = e at hstop
    cases hstop with
    | refused hline hr =>
      subst he
      exact absurd (Snapshot.renumber_of_replay hr (· + 1)) (by simp [LedgerError.renumber])
    | foreign hline =>
      cases he
      exact ⟨before, line, rest, rs, t, hlines, Nat.add_comm 1 _, hrs, ht, hline⟩
    | notText hline => cases he
  · rintro ⟨before, line, rest, rs, t, hlines, rfl, hrs, ht, hline⟩
    rw [Nat.add_comm]
    exact ⟨before, line, rest, rs, t, hlines, hrs, ht, .foreign hline⟩

/-- In a text no other line ends the loading than one whose record does not apply. -/
theorem replayLog_eq_error_iff {s : Snapshot} {content : Bytes} (htext : Text.IsText content)
    {e : LedgerError} (he : ∀ n cause, e ≠ .corruptLog n cause) :
    replayLog s content = .error e ↔
      ∃ before line rest rs t r, Text.lines content = before ++ line :: rest ∧
        Hold before rs ∧ rs.foldlM Snapshot.replay s = .ok t ∧ ofLine line = .record r ∧
        t.applyAll r.block.transactions = .error e := by
  change s.replayLines 1 (Text.lines content) = _ ↔ _
  rw [Snapshot.replayLines_eq_error_iff]
  constructor
  · rintro ⟨before, line, rest, rs, t, hlines, hrs, ht, hstop⟩
    cases hstop with
    | @refused r _ hline hr =>
      exact ⟨before, line, rest, rs, t, r, hlines, hrs, ht, hline,
        Snapshot.replay_eq_error_iff.mp hr⟩
    | foreign hline => exact absurd rfl (he _ _)
    | notText hline =>
      have hmem : line ∈ Text.lines content := by simp [hlines]
      exact absurd hline (LineContent.ofLine_ne_notText (Text.isText_of_mem_lines htext line hmem))
  · rintro ⟨before, line, rest, rs, t, r, hlines, hrs, ht, hline, hr⟩
    exact ⟨before, line, rest, rs, t, hlines, hrs, ht,
      .refused hline (Snapshot.replay_eq_error_iff.mpr hr)⟩

/-- Loading is a fold over the lines of the log.  A log that is cut at the end of a line is loaded by
loading what stands before and replaying the records behind; blank lines change nothing but the number
of the line in an error, and behind the last line not even that, but for the cause where a carriage
return ends a line that is no record.  A line is named where it is text but no record, and is the first
such, all records before it being replayed; where the transactions of a record do not apply first, their
error is reported.  The file of the log stays as it is, and where the genesis file is refused nothing is
made. -/
theorem load_streams (genesis : FileEntry) (limit : SizeLimit) :
    let state content := (load genesis (.file content) limit).1.map (·.snapshot)
    let unnumbered (outcome : Except LedgerError Snapshot) := outcome.mapError (·.renumber fun _ => 0)
    (∀ g, Genesis.ofFile genesis = .ok g →
      (∀ first second, Text.EndsLine first →
        (∀ s, state (first ++ second) = .ok s ↔
          ∃ t rs, state first = .ok t ∧ FileLog.records ⟨second, limit⟩ = .ok rs ∧
            rs.foldlM Snapshot.replay t = .ok s) ∧
        state (first ++ second) = (state first).bind fun t =>
          (replayLog t second).mapError (·.renumber (· + first.count 0x0a))) ∧
      (∀ x y, writtenLines x = writtenLines y → unnumbered (state x) = unnumbered (state y)) ∧
      (∀ blank, (0x0a : UInt8) ∉ blank → ofLine blank = .blank →
        (∀ first second, Text.EndsLine first →
          unnumbered (state (first ++ (blank ++ 0x0a :: second))) =
            unnumbered (state (first ++ second))) ∧
        ∀ content, state (content ++ 0x0a :: blank) = state content ∨
          content.getLast? = some 0x0d ∧ ∃ n cause cause',
            state content = .error (.corruptLog n cause) ∧
              state (content ++ 0x0a :: blank) = .error (.corruptLog n cause')) ∧
      (∀ content n cause, state content = .error (.corruptLog n cause) ↔
        ∃ before line rest rs t, Text.lines content = before ++ line :: rest ∧
          n = before.length + 1 ∧ Hold before rs ∧
          rs.foldlM Snapshot.replay (.ofBalances g.balances) = .ok t ∧ ofLine line = .foreign cause) ∧
      ∀ content e, Text.IsText content → (∀ n cause, e ≠ .corruptLog n cause) →
        (state content = .error e ↔
          ∃ before line rest rs t r, Text.lines content = before ++ line :: rest ∧
            Hold before rs ∧ rs.foldlM Snapshot.replay (.ofBalances g.balances) = .ok t ∧
            ofLine line = .record r ∧ t.applyAll r.block.transactions = .error e)) ∧
    (∀ content, (load genesis (.file content) limit).2 = .file content) ∧
    ∀ e log, Genesis.ofFile genesis = .error e → load genesis log limit = (.error e, log) := by
  intro state unnumbered
  refine ⟨fun g hg => ?_, fun content => ?_, fun e log hg => by rw [load, hg]⟩
  · have hstate content : state content = replayLog (.ofBalances g.balances) content := by
      change (load genesis (.file content) limit).1.map _ = _
      rw [load_file hg]
      cases replayLog (.ofBalances g.balances) content <;> rfl
    have hwritten {x y : Bytes} (h : writtenLines x = writtenLines y) :
        unnumbered (state x) = unnumbered (state y) := by
      rw [hstate, hstate]
      exact replayLog_of_writtenLines h _
    refine ⟨fun first second hfirst => ?_, fun x y => hwritten, fun blank hnewline hblank =>
      ⟨fun first second hfirst => hwritten (writtenLines_insert hfirst hnewline hblank second),
        fun content => by simpa only [hstate] using replayLog_append_blank hnewline hblank _ content⟩,
      ?_, ?_⟩
    · have happend := replayLog_append hfirst (.ofBalances g.balances) second
      rw [← hstate, ← hstate] at happend
      refine ⟨fun s => ?_, happend⟩
      rw [happend]
      cases state first with
      | error e => simp [Except.bind]
      | ok t =>
        have hsecond : ((replayLog t second).mapError
            (·.renumber (· + first.count 0x0a)) = .ok s) ↔ replayLog t second = .ok s := by
          cases replayLog t second <;> simp [Except.mapError]
        simpa [Except.bind] using hsecond.trans (replayLog_eq_ok_iff limit)
    · intro content n cause
      rw [hstate]
      exact replayLog_eq_corruptLog_iff
    · intro content e htext he
      rw [hstate]
      exact replayLog_eq_error_iff htext he
  · rw [load]
    cases Genesis.ofFile genesis <;> rfl

/-- A line that is text but no record. -/
def strayLine : Bytes := Text.utf8 "x"

theorem ofLine_strayLine : ofLine strayLine = .foreign (.broken .malformed) := by
  have hblank : Text.isBlankText "x" = false := by decide
  have hdecode : Json.decode Record.decoder strayLine = .error (.broken .malformed) :=
    Json.Fields.decode_stray rfl rfl
  rw [ofLine, strayLine, Text.ofUtf8?_utf8]
  simp only [hblank]
  rw [← strayLine, hdecode]
  rfl

/-- A record is loaded, and a blank line changes nothing but the number of the line behind it, which is
no record.  Where a record spends what nobody has, this is the error. -/
theorem load_streams_strayLine :
    let genesis := Genesis.fileOf "sample" .empty
    let state content := (load genesis (.file content) none).1.map (·.snapshot)
    let first := line (.ofBlock sampleBlock)
    state first = .ok ⟨.empty, sampleBlock.digest, 1⟩ ∧
      state (first ++ strayLine) = .error (.corruptLog 2 (.broken .malformed)) ∧
      (state (first ++ ([0x20] ++ 0x0a :: strayLine))).mapError (·.renumber fun _ => 0) =
        .error (.corruptLog 0 (.broken .malformed)) ∧
      state (first ++ line (.ofBlock spendingBlock)) =
        .error (.insufficientBalance sampleMiner 5 0) ∧
      (load genesis (.file first) none).2 = .file first ∧
      load .absent .absent none = (.error (.file .notFound), .absent) := by
  intro genesis state first
  obtain ⟨hparsed, hkept, -⟩ := load_streams genesis none
  obtain ⟨hcut, -, hblank, hstray, hrefused⟩ :=
    hparsed _ (Genesis.ofFile_fileOf "sample" .empty)
  have hends : Text.EndsLine first := Or.inr ⟨_, rfl⟩
  have hrecord := LineContent.ofLine_render (.ofBlock sampleBlock)
  have hempty : state [] = .ok (.ofBalances .empty) := by
    simp only [state, genesis, load_file (Genesis.ofFile_fileOf "sample" .empty)]
    rfl
  have hsecond : state (first ++ strayLine) = .error (.corruptLog 2 (.broken .malformed)) :=
    (hstray _ 2 _).mpr ⟨[_], strayLine, [], [.ofBlock sampleBlock], _,
      (lines_line _ strayLine).trans rfl, rfl, .record hrecord .nil, rfl, ofLine_strayLine⟩
  refine ⟨?_, hsecond, ?_, ?_, hkept first, (load_streams .absent none).2.2 _ _ rfl⟩
  · exact ((hcut [] first (Or.inl rfl)).1 _).mpr ⟨_, [.ofBlock sampleBlock], hempty,
      by simpa [first] using FileLog.records_lines [.ofBlock sampleBlock] none, rfl⟩
  · have hinserted := (hblank [0x20] (by decide) (LineContent.ofLine_of_spaces rfl)).1 first
      strayLine hends
    exact hinserted.trans (congrArg _ hsecond)
  · have htext : Text.IsText (first ++ line (.ofBlock spendingBlock)) :=
      (isText_line _).append (isText_line _)
    refine (hrefused _ _ htext (fun _ _ h => LedgerError.noConfusion h)).mpr
      ⟨[_], (Record.ofBlock spendingBlock).toJson.render, [[]], [.ofBlock sampleBlock], _,
        .ofBlock spendingBlock, ?_, .record hrecord .nil, rfl, LineContent.ofLine_render _, rfl⟩
    rw [lines_line, ← List.append_nil (line (.ofBlock spendingBlock)), lines_line,
      Text.lines_of_notMem List.not_mem_nil]
    rfl

end Ledger
end LedgerNode
