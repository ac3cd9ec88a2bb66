import LedgerNode.Json.Token

/-!
Tokens of a text that goes on.  A token without a fault is scanned the same whatever follows it,
unless it is a name or a number, which may go on behind the end; white space ends those too.
-/
namespace LedgerNode.Json

section tokens

/-- The form of a string does not depend on what follows it. -/
theorem skipText_append {s r : Bytes} (h : skipText s = .ok r) (x : Bytes) :
    skipText (s ++ x) = .ok (r ++ x) := by
  fun_induction skipText s
  case case1 => cases h
  all_goals
    rw [List.cons_append, skipText.eq_def]
    grind

/-- The content of a string that ends does not depend on what follows it, even if it has a fault. -/
theorem readText_append {s r : Bytes} (h : skipText s = .ok r) (x : Bytes) :
    readText (s ++ x) = readText s := by
  fun_induction readText s generalizing r
  case case1 => cases h
  -- two escapes that make one character are skipped one by one
  case case14 | case15 =>
    simp_all [skipText]
    rw [readText.eq_def]
    grind
  all_goals
    rw [skipText.eq_def] at h
    rw [List.cons_append, readText.eq_def]
    grind [skipText]

theorem scanText_append {s after : Bytes} {d : Doc} (h : scanText s = (d, after))
    (hd : d.skip = .ok ()) (x : Bytes) : scanText (s ++ x) = (d, after ++ x) := by
  cases hskip : skipText s with
  | error b =>
    cases hread : readText s <;> simp only [scanText, hskip, hread] at h
    all_goals
      cases h
      cases hd
  | ok r =>
    rw [scanText, skipText_append hskip x, readText_append hskip x]
    rw [scanText, hskip] at h
    cases hread : readText s <;> simp_all

theorem scanName_append {d : Doc} {tail s after : Bytes} {e : Doc}
    (h : scanName d tail s = (e, after)) (he : e.skip = .ok ()) (x : Bytes) :
    scanName d tail (s ++ x) = (e, after ++ x) := by
  induction tail generalizing s with
  | nil =>
    cases h
    rfl
  | cons t tail ih =>
    cases s with
    | nil =>
      cases h
      cases he
    | cons b s =>
      by_cases hb : b = t
      · simp only [scanName, hb, if_true] at h
        simpa [scanName, hb] using ih h
      · simp only [scanName, hb, if_false] at h
        cases h
        cases he

/-- Digits that end within a text do not go on behind it. -/
theorem digits_append {s : Bytes} (h : s.dropWhile isDigit ≠ []) (x : Bytes) :
    (s ++ x).takeWhile isDigit = s.takeWhile isDigit ∧
      (s ++ x).dropWhile isDigit = s.dropWhile isDigit ++ x := by
  induction s with
  | nil => exact absurd rfl h
  | cons b s ih =>
    cases hb : isDigit b with
    | false => simp [hb]
    | true => simpa [hb] using ih (by simpa [hb] using h)

theorem exponentSign_append {s : Bytes} (h : s ≠ []) (x : Bytes) :
    exponentSign (s ++ x) = ((exponentSign s).1, (exponentSign s).2 ++ x) := by
  obtain ⟨b, s, rfl⟩ := List.exists_cons_of_ne_nil h
  rw [List.cons_append]
  unfold exponentSign
  split <;> simp_all

theorem scanExponent_append {n : Bool} {w f s after : Bytes} {d : Doc}
    (h : scanExponent n w f s = (d, after)) (hafter : after ≠ []) (x : Bytes) :
    scanExponent n w f (s ++ x) = (d, after ++ x) := by
  have hs : s ≠ [] := by
    rintro rfl
    cases h
    exact hafter rfl
  simp only [scanExponent] at h
  rw [scanExponent, exponentSign_append hs]
  split at h
  · cases h
    exact absurd rfl hafter
  · cases h
    rename_i hne
    obtain ⟨htake, hdrop⟩ := digits_append hafter x
    simp only [htake, hdrop]
    rw [if_neg hne]

theorem scanFraction_append {n : Bool} {w s after : Bytes} {d : Doc}
    (h : scanFraction n w s = (d, after)) (hafter : after ≠ []) (x : Bytes) :
    scanFraction n w (s ++ x) = (d, after ++ x) := by
  simp only [scanFraction] at h
  split at h
  · cases h
    exact absurd rfl hafter
  · rename_i hne
    split at h
    · rename_i b rest hrest
      obtain ⟨htake, hdrop⟩ := digits_append (s := s) (by simp [hrest]) x
      simp only [scanFraction, htake, hdrop, hrest, hne]
      split at h
      · rename_i hb
        simpa [hb] using scanExponent_append h hafter x
      · rename_i hb
        cases h
        simp [hb]
    · cases h
      exact absurd rfl hafter

theorem scanNumber_append {n : Bool} {s after : Bytes} {d : Doc}
    (h : scanNumber n s = (d, after)) (hafter : after ≠ []) (x : Bytes) :
    scanNumber n (s ++ x) = (d, after ++ x) := by
  simp only [scanNumber] at h
  split at h
  · cases h
    exact absurd rfl hafter
  · rename_i hne
    split at h
    · cases h
      exact absurd rfl hafter
    · rename_i hzero
      split at h
      · rename_i b rest hrest
        obtain ⟨htake, hdrop⟩ := digits_append (s := s) (by simp [hrest]) x
        simp only [scanNumber, htake, hdrop, hrest, hne, hzero]
        split at h
        · rename_i hb
          simpa [hb] using scanFraction_append h hafter x
        · split at h
          · rename_i hb he
            simpa [hb, he] using scanExponent_append h hafter x
          · rename_i hb he
            cases h
            simp [hb, he]
      · cases h
        exact absurd rfl hafter

theorem scanWord_append {b : UInt8} {rest after : Bytes} {d : Doc}
    (h : scanWord b rest = some (d, after)) (hd : d.skip = .ok ()) (hafter : after ≠ [])
    (x : Bytes) : scanWord b (rest ++ x) = some (d, after ++ x) := by
  unfold scanWord at h ⊢
  repeat' split at h
  all_goals simp only [Option.some.injEq, reduceCtorEq] at h
  · rw [if_pos ‹_›, scanName_append h hd]
  · rw [if_neg ‹_›, if_pos ‹_›, scanName_append h hd]
  · rw [if_neg ‹_›, if_neg ‹_›, if_pos ‹_›, scanName_append h hd]
  · rw [if_neg ‹_›, if_neg ‹_›, if_neg ‹_›, if_pos ‹_›, scanNumber_append h hafter]
  · rw [if_neg ‹_›, if_neg ‹_›, if_neg ‹_›, if_neg ‹_›, if_pos ‹_›, ← List.cons_append,
      scanNumber_append h hafter]

/-- The token is there as a whole, at least for a reader who skips it. -/
def Token.IsSound : Token → Prop
  | .text d | .word d => d.skip = .ok ()
  | .stray => False
  | _ => True

theorem scanToken_append {b : UInt8} {rest after : Bytes} {t : Token}
    (h : scanToken b rest = (t, after)) (ht : t.IsSound) (hend : ∀ d, t = .word d → after ≠ [])
    (x : Bytes) : scanToken b (rest ++ x) = (t, after ++ x) := by
  rw [scanToken] at h ⊢
  cases hmark : mark? b with
  | some m =>
    rw [hmark] at h
    cases h
    rfl
  | none =>
    simp only [hmark] at h ⊢
    by_cases hquote : b = 0x22
    · rw [if_pos hquote] at h ⊢
      cases h
      have hscan : scanText (rest ++ x) = ((scanText rest).1, (scanText rest).2 ++ x) :=
        scanText_append rfl ht x
      rw [hscan]
    · rw [if_neg hquote] at h ⊢
      cases hword : scanWord b rest with
      | none =>
        rw [hword] at h
        cases h
        cases ht
      | some found =>
        obtain ⟨d, r⟩ := found
        rw [hword] at h
        cases h
        rw [scanWord_append hword ht (hend _ rfl) x]

/-- Behind sound tokens a text is read on as if it began there, unless the last one might go on. -/
theorem tokens_append {s : Bytes} (hsound : ∀ t ∈ tokens s, t.IsSound)
    (hlast : ∀ d, (tokens s).getLast? ≠ some (.word d)) (x : Bytes) :
    tokens (s ++ x) = tokens s ++ tokens x := by
  fun_induction tokens s with
  | case1 => rfl
  | case2 b rest hb ih =>
    rw [List.cons_append, tokens, if_pos hb, ih hsound hlast]
  | case3 b rest hb hlt ih =>
    obtain ⟨hfirst, hrest⟩ := List.forall_mem_cons.mp hsound
    have hend : ∀ d, (scanToken b rest).1 = .word d → (scanToken b rest).2 ≠ [] := by
      intro d hd hnil
      refine hlast d ?_
      rw [hnil, hd, tokens]
      rfl
    have hscan : scanToken b (rest ++ x) = ((scanToken b rest).1, (scanToken b rest).2 ++ x) :=
      scanToken_append rfl hfirst hend x
    rw [List.cons_append, tokens, if_neg hb, hscan, ih hrest, List.cons_append]
    intro d hd
    refine hlast d ?_
    rw [List.getLast?_cons, hd]
    rfl

end tokens

section spaces

/-- With `c` behind it the same is scanned from a text, and `c` is left over; or what is scanned has
a fault both times. -/
def ScansAlike (c : UInt8) (p q : Doc × Bytes) : Prop :=
  q = (p.1, p.2 ++ [c]) ∨ p.1.skip ≠ .ok () ∧ q.1.skip ≠ .ok ()

theorem ScansAlike.faulty {c : UInt8} {place place' : FaultPlace} {b b' skipped skipped' : Break}
    {after after' : Bytes} :
    ScansAlike c (.faulty place b (some skipped), after) (.faulty place' b' (some skipped'), after') :=
  Or.inr ⟨by rintro ⟨⟩, by rintro ⟨⟩⟩

variable {c : UInt8}

theorem scanName_append_space (d : Doc) (tail : Bytes) (htail : c ∉ tail) (s : Bytes) :
    ScansAlike c (scanName d tail s) (scanName d tail (s ++ [c])) := by
  induction tail generalizing s with
  | nil => exact Or.inl rfl
  | cons t tail ih =>
    obtain ⟨ht, htail⟩ := not_or.mp (mt List.mem_cons.mpr htail)
    cases s with
    | nil =>
      simp only [List.nil_append, scanName, if_neg ht]
      exact .faulty
    | cons b s =>
      simp only [List.cons_append, scanName]
      split
      · exact ih htail s
      · exact .faulty

variable (hc : isSpace c = true)
include hc

theorem eq_of_isSpace : c = 0x20 ∨ c = 0x0a ∨ c = 0x0d ∨ c = 0x09 := by
  simpa [isSpace, or_assoc] using hc

theorem isDigit_of_isSpace : isDigit c = false := by
  rcases eq_of_isSpace hc with rfl | rfl | rfl | rfl <;> rfl

theorem unit?_of_isSpace (a b d : UInt8) : unit? a b d c = none := by
  have hvalue : hexValue? c = none := by
    rcases eq_of_isSpace hc with rfl | rfl | rfl | rfl <;> rfl
  simp [unit?, hvalue]

/-- A string that does not end does not end in white space either. -/
theorem skipText_append_space {s : Bytes} {b : Break} (h : skipText s = .error b) :
    ∃ b', skipText (s ++ [c]) = .error b' := by
  have hspace := eq_of_isSpace hc
  fun_induction skipText s
  case case8 b _ _ _ tail hshort =>
    simp only [List.cons_append]
    rw [skipText.eq_def]
    rcases tail with _ | ⟨x, _ | ⟨y, _ | ⟨z, _ | ⟨w, rest⟩⟩⟩⟩
    · simp_all
    · simp_all
    · simp_all
    · simp_all [unit?_of_isSpace hc]
    · exact absurd rfl (hshort x y z w rest)
  all_goals
    simp only [List.nil_append, List.cons_append]
    rw [skipText.eq_def]
    grind [skipText, unescape?]

theorem scanText_append_space (s : Bytes) : ScansAlike c (scanText s) (scanText (s ++ [c])) := by
  cases hskip : skipText s with
  | ok r =>
    left
    rw [scanText, scanText, skipText_append hskip, readText_append hskip, hskip]
    cases readText s <;> rfl
  | error b =>
    obtain ⟨b', hskip'⟩ := skipText_append_space hc hskip
    simp only [scanText, hskip, hskip']
    cases readText s <;> cases readText (s ++ [c]) <;> exact .faulty

theorem digits_append_space (s : Bytes) :
    (s ++ [c]).takeWhile isDigit = s.takeWhile isDigit ∧
      (s ++ [c]).dropWhile isDigit = s.dropWhile isDigit ++ [c] := by
  have hdigit := isDigit_of_isSpace hc
  induction s with
  | nil => simp [hdigit]
  | cons b s ih => cases hb : isDigit b <;> simp [hb, ih]

theorem exponentSign_append_space (s : Bytes) :
    exponentSign (s ++ [c]) = ((exponentSign s).1, (exponentSign s).2 ++ [c]) := by
  cases s with
  | nil => rcases eq_of_isSpace hc with rfl | rfl | rfl | rfl <;> rfl
  | cons b s => exact exponentSign_append (List.cons_ne_nil b s) [c]

theorem scanExponent_append_space (n : Bool) (w f s : Bytes) :
    ScansAlike c (scanExponent n w f s) (scanExponent n w f (s ++ [c])) := by
  rw [scanExponent, scanExponent, exponentSign_append_space hc]
  obtain ⟨htake, hdrop⟩ := digits_append_space hc (exponentSign s).2
  simp only [htake, hdrop]
  split
  · exact .faulty
  · exact Or.inl rfl

theorem scanFraction_append_space (n : Bool) (w s : Bytes) :
    ScansAlike c (scanFraction n w s) (scanFraction n w (s ++ [c])) := by
  obtain ⟨htake, hdrop⟩ := digits_append_space hc s
  simp only [scanFraction, htake, hdrop]
  split
  · exact .faulty
  · cases s.dropWhile isDigit with
    | nil =>
      have hexp : ¬ (c = 0x65 ∨ c = 0x45) := by
        rcases eq_of_isSpace hc with rfl | rfl | rfl | rfl <;> decide
      simp only [List.nil_append, if_neg hexp]
      exact Or.inl rfl
    | cons b rest =>
      simp only [List.cons_append]
      split
      · exact scanExponent_append_space hc n w _ rest
      · exact Or.inl rfl

theorem scanNumber_append_space (n : Bool) (s : Bytes) :
    ScansAlike c (scanNumber n s) (scanNumber n (s ++ [c])) := by
  obtain ⟨htake, hdrop⟩ := digits_append_space hc s
  simp only [scanNumber, htake, hdrop]
  split
  · exact .faulty
  · split
    · exact .faulty
    · cases s.dropWhile isDigit with
      | nil =>
        have hend : c ≠ 0x2e ∧ ¬ (c = 0x65 ∨ c = 0x45) := by
          rcases eq_of_isSpace hc with rfl | rfl | rfl | rfl <;> decide
        simp only [List.nil_append, if_neg hend.1, if_neg hend.2]
        exact Or.inl rfl
      | cons b rest =>
        simp only [List.cons_append]
        split
        · exact scanFraction_append_space hc n _ rest
        · split
          · exact scanExponent_append_space hc n _ [] rest
          · exact Or.inl rfl

theorem scanWord_append_space (b : UInt8) (rest : Bytes) :
    scanWord b rest = none ∧ scanWord b (rest ++ [c]) = none ∨
      ∃ p q, scanWord b rest = some p ∧ scanWord b (rest ++ [c]) = some q ∧ ScansAlike c p q := by
  have hname (t : UInt8) (ht : ¬ isSpace t = true) : c ≠ t := fun h => ht (h ▸ hc)
  unfold scanWord
  split
  · exact Or.inr ⟨_, _, rfl, rfl, scanName_append_space _ _ (by simp [hname, isSpace]) rest⟩
  split
  · exact Or.inr ⟨_, _, rfl, rfl, scanName_append_space _ _ (by simp [hname, isSpace]) rest⟩
  split
  · exact Or.inr ⟨_, _, rfl, rfl, scanName_append_space _ _ (by simp [hname, isSpace]) rest⟩
  split
  · exact Or.inr ⟨_, _, rfl, rfl, scanNumber_append_space hc true rest⟩
  split
  · exact Or.inr ⟨_, _, rfl, rfl, scanNumber_append_space hc false (b :: rest)⟩
  · exact Or.inl ⟨rfl, rfl⟩

/-- A token without a fault is scanned the same with white space behind it, which is left over. -/
theorem scanToken_append_space (b : UInt8) (rest : Bytes) :
    scanToken b (rest ++ [c]) = ((scanToken b rest).1, (scanToken b rest).2 ++ [c]) ∨
      ¬ (scanToken b rest).1.IsSound ∧ ¬ (scanToken b (rest ++ [c])).1.IsSound := by
  unfold scanToken
  cases mark? b with
  | some t => exact Or.inl rfl
  | none =>
    simp only
    by_cases hquote : b = 0x22
    · simp only [if_pos hquote]
      rcases scanText_append_space hc rest with heq | hfaulty
      · exact Or.inl (by rw [heq])
      · exact Or.inr hfaulty
    · simp only [if_neg hquote]
      rcases scanWord_append_space hc b rest with ⟨hp, hq⟩ | ⟨p, q, hp, hq, heq | hfaulty⟩
      · rw [hp, hq]
        exact Or.inr ⟨not_false, not_false⟩
      · rw [hp, hq, heq]
        exact Or.inl rfl
      · rw [hp, hq]
        exact Or.inr hfaulty

/-- White space behind a text adds no token; at most it changes the fault of one that has a fault. -/
theorem tokens_append_space (s : Bytes) :
    tokens (s ++ [c]) = tokens s ∨
      (∃ t ∈ tokens s, ¬ t.IsSound) ∧ ∃ t ∈ tokens (s ++ [c]), ¬ t.IsSound := by
  fun_induction tokens s with
  | case1 =>
    left
    rw [List.nil_append, tokens, if_pos hc, tokens]
  | case2 b rest hb ih =>
    rw [List.cons_append, tokens, if_pos hb]
    exact ih
  | case3 b rest hb hlt ih =>
    rw [List.cons_append, tokens, if_neg hb]
    rcases scanToken_append_space hc b rest with heq | ⟨hfirst, hfirst'⟩
    · rw [heq]
      rcases ih with ih | ⟨⟨t, ht, hunsound⟩, u, hu, hunsound'⟩
      · exact Or.inl (by rw [ih])
      · exact Or.inr ⟨⟨t, List.mem_cons_of_mem _ ht, hunsound⟩, u, List.mem_cons_of_mem _ hu,
          hunsound'⟩
    · exact Or.inr ⟨⟨_, List.mem_cons_self, hfirst⟩, _, List.mem_cons_self, hfirst'⟩

end spaces

section words

/-- An array or object. -/
def Doc.IsBracketed : Doc → Prop
  | .array _ | .object _ => True
  | _ => False

theorem not_isBracketed_scanName {d : Doc} (h : ¬ d.IsBracketed) (tail s : Bytes) :
    ¬ (scanName d tail s).1.IsBracketed := by
  induction tail generalizing s with
  | nil => exact h
  | cons t tail ih =>
    cases s with
    | nil => exact not_false
    | cons b s =>
      simp only [scanName]
      split
      · exact ih s
      · exact not_false

theorem not_isBracketed_numberDoc (n : Bool) (w f : Bytes) (e : Int) (isWhole : Bool) :
    ¬ (numberDoc n w f e isWhole).IsBracketed := by
  unfold numberDoc
  dsimp only
  repeat' split
  all_goals nofun

theorem not_isBracketed_scanExponent (n : Bool) (w f s : Bytes) :
    ¬ (scanExponent n w f s).1.IsBracketed := by
  unfold scanExponent
  grind [Doc.IsBracketed, brokenNumber, not_isBracketed_numberDoc]

theorem not_isBracketed_scanFraction (n : Bool) (w s : Bytes) :
    ¬ (scanFraction n w s).1.IsBracketed := by
  unfold scanFraction
  grind [Doc.IsBracketed, brokenNumber, not_isBracketed_numberDoc, not_isBracketed_scanExponent]

theorem not_isBracketed_scanNumber (n : Bool) (s : Bytes) :
    ¬ (scanNumber n s).1.IsBracketed := by
  unfold scanNumber
  grind [Doc.IsBracketed, brokenNumber, not_isBracketed_numberDoc, not_isBracketed_scanExponent,
    not_isBracketed_scanFraction]

theorem not_isBracketed_scanWord {b : UInt8} {rest : Bytes} {found : Doc × Bytes}
    (h : scanWord b rest = some found) : ¬ found.1.IsBracketed := by
  unfold scanWord at h
  grind [Doc.IsBracketed, not_isBracketed_scanName, not_isBracketed_scanNumber]

/-- A name or number is no array or object. -/
theorem not_isBracketed_of_word {s : Bytes} {d : Doc} (h : .word d ∈ tokens s) :
    ¬ d.IsBracketed := by
  fun_induction tokens s with
  | case1 => cases h
  | case2 b rest hb ih => exact ih h
  | case3 b rest hb hlt ih =>
    rcases List.mem_cons.mp h with hfirst | hrest
    · simp only [scanToken] at hfirst
      split at hfirst
      · rename_i hmark
        unfold mark? at hmark
        grind
      · split at hfirst
        · cases hfirst
        · split at hfirst
          · rename_i hword
            cases hfirst
            exact not_isBracketed_scanWord hword
          · cases hfirst
    · exact ih hrest

end words

end LedgerNode.Json
