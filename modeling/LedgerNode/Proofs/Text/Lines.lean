import LedgerNode.Proofs.Text.Encoding

/-!
The lines of a text: what becomes of them when something is written behind it, how many there are, and
that they are texts themselves.
-/
namespace LedgerNode.Text

theorem dropReturn_of_getLast? {line : Bytes} (h : line.getLast? ≠ some 0x0d) :
    dropReturn line = line := if_neg h

theorem dropReturn_concat (line : Bytes) : dropReturn (line ++ [0x0d]) = line := by
  simp [dropReturn]

/-- What ends otherwise than in a carriage return stays as it is, whatever stands before it. -/
theorem dropReturn_append (front : Bytes) {line : Bytes} (hline : line ≠ [])
    (h : line.getLast? ≠ some 0x0d) : dropReturn (front ++ line) = front ++ line := by
  obtain ⟨init, last, rfl⟩ := (List.eq_nil_or_concat line).resolve_left hline
  refine dropReturn_of_getLast? ?_
  simpa [← List.append_assoc] using h

theorem endLines_append (before : List Bytes) {rest : List Bytes} (h : rest ≠ []) :
    endLines (before ++ rest) = before.map dropReturn ++ endLines rest := by
  induction before with
  | nil => rfl
  | cons line before ih =>
    rw [List.cons_append, endLines_cons line (List.append_ne_nil_of_right_ne_nil before h), ih]
    rfl

theorem length_endLines (ls : List Bytes) : (endLines ls).length = ls.length := by
  induction ls using endLines.induct with
  | case1 => rfl
  | case2 last => rfl
  | case3 line next rest ih => rw [endLines, List.length_cons, List.length_cons, ih]

theorem lines_ne_nil (s : Bytes) : lines s ≠ [] := fun h =>
  pieces_ne_nil s (List.length_eq_zero_iff.mp (by rw [← length_endLines, ← lines, h]; rfl))

/-- The line that a text ends in; it is empty behind a line feed. -/
def lastLine (s : Bytes) : Bytes := (lines s).getLast (lines_ne_nil s)

theorem lines_eq_append (s : Bytes) : lines s = (lines s).dropLast ++ [lastLine s] :=
  (List.dropLast_concat_getLast (lines_ne_nil s)).symm

/-- Only lines that end may lose a carriage return. -/
theorem exists_pieces (s : Bytes) :
    ∃ before last, pieces s = before ++ [last] ∧ lines s = before.map dropReturn ++ [last] := by
  obtain ⟨before, last, hpieces⟩ := (List.eq_nil_or_concat _).resolve_left (pieces_ne_nil s)
  rw [List.concat_eq_append] at hpieces
  refine ⟨before, last, hpieces, ?_⟩
  rw [lines, hpieces, endLines_append _ (List.cons_ne_nil _ _)]
  rfl

theorem pieces_of_lines {s last : Bytes} {before : List Bytes} (h : lines s = before ++ [last]) :
    ∃ mid, pieces s = mid ++ [last] ∧ before = mid.map dropReturn := by
  obtain ⟨mid, tail, hpieces, hlines⟩ := exists_pieces s
  obtain ⟨rfl, hlast⟩ := List.append_inj' (h.symm.trans hlines) rfl
  cases hlast
  exact ⟨mid, hpieces, rfl⟩

theorem pieces_of_notMem {line : Bytes} (h : (0x0a : UInt8) ∉ line) : pieces line = [line] := by
  induction line with
  | nil => rfl
  | cons b line ih =>
    obtain ⟨hb, hline⟩ := not_or.mp (mt List.mem_cons.mpr h)
    rw [pieces, if_neg (Ne.symm hb), ih hline]
    rfl

theorem lines_of_notMem {line : Bytes} (h : (0x0a : UInt8) ∉ line) : lines line = [line] := by
  rw [lines, pieces_of_notMem h]
  rfl

/-- What is written behind a text goes on in its last piece. -/
theorem pieces_append {s last : Bytes} {before : List Bytes} (h : pieces s = before ++ [last])
    {rest first : Bytes} {behind : List Bytes} (hrest : pieces rest = first :: behind) :
    pieces (s ++ rest) = before ++ (last ++ first) :: behind := by
  induction s generalizing before last with
  | nil =>
    have hempty : ([] : List Bytes) ++ [[]] = before ++ [last] := h
    obtain ⟨rfl, hlast⟩ := List.append_inj' hempty rfl
    cases hlast
    exact hrest
  | cons b s ih =>
    obtain ⟨mid, tail, hs, -⟩ := exists_pieces s
    rw [pieces, hs] at h
    rw [List.cons_append, pieces, ih hs]
    by_cases hb : b = 0x0a
    · rw [if_pos hb, ← List.cons_append] at h
      obtain ⟨rfl, hlast⟩ := List.append_inj' h rfl
      cases hlast
      rw [if_pos hb]
      rfl
    · rw [if_neg hb] at h ⊢
      cases mid with
      | nil =>
        have hone : ([] : List Bytes) ++ [b :: tail] = before ++ [last] := h
        obtain ⟨rfl, hlast⟩ := List.append_inj' hone rfl
        cases hlast
        rfl
      | cons m mid =>
        have hmore : (b :: m) :: mid ++ [tail] = before ++ [last] := h
        obtain ⟨rfl, hlast⟩ := List.append_inj' hmore rfl
        cases hlast
        rfl

/-- A line that is written behind a text goes on in its last line. -/
theorem lines_append_line {s last : Bytes} {before : List Bytes} (h : lines s = before ++ [last])
    {line : Bytes} (hline : (0x0a : UInt8) ∉ line) (rest : Bytes) :
    lines (s ++ (line ++ 0x0a :: rest)) = before ++ dropReturn (last ++ line) :: lines rest := by
  obtain ⟨mid, hs, rfl⟩ := pieces_of_lines h
  rw [lines, pieces_append hs (pieces_append_newline hline rest),
    endLines_append _ (List.cons_ne_nil _ _), endLines_cons _ (pieces_ne_nil rest), lines]

/-- A line feed behind a text ends its last line. -/
theorem lines_append_end {s last : Bytes} {before : List Bytes} (h : lines s = before ++ [last])
    (rest : Bytes) : lines (s ++ 0x0a :: rest) = before ++ dropReturn last :: lines rest := by
  have hlines := lines_append_line h (List.not_mem_nil (a := 0x0a)) rest
  rwa [List.nil_append, List.append_nil] at hlines

/-- What does not end behind a text goes on in its last line. -/
theorem lines_append_of_notMem {s last : Bytes} {before : List Bytes}
    (h : lines s = before ++ [last]) {line : Bytes} (hline : (0x0a : UInt8) ∉ line) :
    lines (s ++ line) = before ++ [last ++ line] := by
  obtain ⟨mid, hs, rfl⟩ := pieces_of_lines h
  rw [lines, pieces_append hs (pieces_of_notMem hline), endLines_append _ (List.cons_ne_nil _ _)]
  rfl

/-- The last line of a text loses nothing by its end, unless a carriage return stands there. -/
theorem dropReturn_lastLine {s : Bytes} (h : s.getLast? ≠ some 0x0d) :
    dropReturn (lastLine s) = lastLine s := by
  rcases List.eq_nil_or_concat s with rfl | ⟨front, b, rfl⟩
  · rfl
  · rw [List.concat_eq_append] at h ⊢
    by_cases hb : b = 0x0a
    · have hended := lines_append_end (lines_eq_append front) []
      simp [lastLine, hb, hended, lines_of_notMem, dropReturn]
    · have hnotMem : (0x0a : UInt8) ∉ [b] := by simpa using Ne.symm hb
      have hlines := lines_append_of_notMem (lines_eq_append front) hnotMem
      have hlast : [b].getLast? ≠ some 0x0d := by simpa using h
      simpa [lastLine, hlines] using dropReturn_append (lastLine front) (List.cons_ne_nil b []) hlast

theorem lines_append_newline_append {s : Bytes} (h : s.getLast? ≠ some 0x0d) (rest : Bytes) :
    lines (s ++ 0x0a :: rest) = lines s ++ lines rest := by
  rw [lines_append_end (lines_eq_append s), dropReturn_lastLine h, List.append_cons,
    ← lines_eq_append]

/-- Nothing stands there, or there is a line feed at the end. -/
def EndsLine (s : Bytes) : Prop := s = [] ∨ ∃ before, s = before ++ [0x0a]

/-- What stands behind the end of a line has lines of its own. -/
theorem lines_append_of_endsLine {s : Bytes} (h : EndsLine s) :
    ∃ before, ∀ rest, lines (s ++ rest) = before ++ lines rest := by
  rcases h with rfl | ⟨before, rfl⟩
  · exact ⟨[], fun _ => rfl⟩
  · refine ⟨(lines before).dropLast ++ [dropReturn (lastLine before)], fun rest => ?_⟩
    rw [List.append_assoc, List.singleton_append, lines_append_end (lines_eq_append before),
      ← List.append_cons]

theorem length_lines (s : Bytes) : (lines s).length = s.count 0x0a + 1 := by
  rw [lines, length_endLines]
  induction s with
  | nil => rfl
  | cons b s ih =>
    rw [pieces, List.count_cons]
    by_cases hb : b = 0x0a
    · simp [hb, ih]
    · obtain ⟨line, rest, hs⟩ := List.exists_cons_of_ne_nil (pieces_ne_nil s)
      rw [hs] at ih
      simp [hb, hs, consByte, ← ih]

theorem newline_notMem_utf8EncodeChar {c : Char} (h : c ≠ '\n') :
    (0x0a : UInt8) ∉ String.utf8EncodeChar c := by
  intro hmem
  by_cases hc : c.toNat < 0x80
  · rw [utf8EncodeChar_of_ascii hc, List.mem_singleton, ← UInt8.toNat_inj] at hmem
    have hnat : c.toNat = 0x0a := by
      simp at hmem
      omega
    exact h (Char.ext (UInt32.toNat_inj.mp hnat))
  · exact absurd (le_of_mem_utf8EncodeChar (Nat.le_of_not_lt hc) hmem) (by decide)

theorem isText_of_mem_pieces {s : Bytes} (h : IsText s) : ∀ line ∈ pieces s, IsText line := by
  obtain ⟨text, rfl⟩ := h
  rw [utf8_eq_flatMap]
  induction text.toList with
  | nil => simp [pieces, isText_nil]
  | cons c cs ih =>
    rw [List.flatMap_cons]
    by_cases hc : c = '\n'
    · have hbyte : String.utf8EncodeChar c = [0x0a] := by rw [hc]; rfl
      rw [hbyte, List.singleton_append, pieces, if_pos rfl]
      exact List.forall_mem_cons.mpr ⟨isText_nil, ih⟩
    · obtain ⟨line, rest, hs⟩ :=
        List.exists_cons_of_ne_nil (pieces_ne_nil (cs.flatMap String.utf8EncodeChar))
      rw [hs] at ih
      obtain ⟨hline, hrest⟩ := List.forall_mem_cons.mp ih
      have hfront : IsText (String.utf8EncodeChar c) :=
        ⟨String.ofList [c], by rw [utf8_ofList, List.flatMap_singleton]⟩
      have hone : pieces (String.utf8EncodeChar c) = [] ++ [String.utf8EncodeChar c] :=
        pieces_of_notMem (newline_notMem_utf8EncodeChar hc)
      rw [pieces_append hone hs]
      exact List.forall_mem_cons.mpr ⟨hfront.append hline, hrest⟩

theorem isText_dropReturn {line : Bytes} (h : IsText line) : IsText (dropReturn line) := by
  by_cases hlast : line.getLast? = some 0x0d
  · obtain ⟨front, rfl⟩ := List.getLast?_eq_some_iff.mp hlast
    rw [dropReturn_concat]
    exact h.of_append (by decide)
  · rwa [dropReturn_of_getLast? hlast]

/-- The lines of a text are texts. -/
theorem isText_of_mem_lines {s : Bytes} (h : IsText s) : ∀ line ∈ lines s, IsText line := by
  obtain ⟨before, last, hpieces, hlines⟩ := exists_pieces s
  have htexts := isText_of_mem_pieces h
  rw [hpieces, List.forall_mem_append] at htexts
  rw [hlines, List.forall_mem_append, List.forall_mem_map]
  exact ⟨fun line hline => isText_dropReturn (htexts.1 line hline), htexts.2⟩

end LedgerNode.Text
