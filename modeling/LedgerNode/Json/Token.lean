import LedgerNode.Json.Doc
import LedgerNode.Text.Hex

/-!
The tokens of a JSON text.  A string, number or name that is not well formed is a token too: it says
what is wrong with it, for a reader who needs it and for one who skips it.
-/
namespace LedgerNode.Json

inductive Token where
  | openArray
  | closeArray
  | openObject
  | closeObject
  | comma
  | colon
  | text (d : Doc)
  | word (d : Doc)
  /-- A byte that begins no token. -/
  | stray

def isSpace (b : UInt8) : Bool := b == 0x20 || b == 0x0a || b == 0x0d || b == 0x09

def isDigit (b : UInt8) : Bool := 0x30 ≤ b && b ≤ 0x39

def hexValue? (b : UInt8) : Option Nat := (Hex.digitValue? b).map UInt8.toNat

/-- The UTF-16 unit that four hexadecimal digits write. -/
def unit? (a b c d : UInt8) : Option Nat := do
  return (((← hexValue? a) * 16 + (← hexValue? b)) * 16 + (← hexValue? c)) * 16 + (← hexValue? d)

/-- The byte that a letter after a backslash stands for. -/
def unescape? (letter : UInt8) : Option UInt8 :=
  if letter = 0x22 then some 0x22
  else if letter = 0x5c then some 0x5c
  else if letter = 0x2f then some 0x2f
  else if letter = 0x62 then some 0x08
  else if letter = 0x66 then some 0x0c
  else if letter = 0x6e then some 0x0a
  else if letter = 0x72 then some 0x0d
  else if letter = 0x74 then some 0x09
  else none

def charBytes (code : Nat) : Bytes := Text.utf8 (Char.ofNat code).toString

/-- The content of a string, read from behind its opening mark.  A unit of the upper surrogates must
be followed by one of the lower. -/
def readText : Bytes → Except Break Bytes
  | [] => .error .cut
  | b :: rest =>
    if b = 0x22 then .ok []
    else if b < 0x20 then .error .malformed
    else if b ≠ 0x5c then (readText rest).map (b :: ·)
    else match rest with
    | [] => .error .cut
    | 0x75 :: a :: b :: c :: d :: rest =>
      match unit? a b c d with
      | none => .error .malformed
      | some high =>
        if 0xdc00 ≤ high ∧ high ≤ 0xdfff then .error .malformed
        else if high < 0xd800 ∨ 0xdfff < high then (readText rest).map (charBytes high ++ ·)
        else match rest with
        | [] => .error .cut
        | [x] => if x = 0x5c then .error .cut else .error .malformed
        | x :: y :: rest =>
          if x ≠ 0x5c ∨ y ≠ 0x75 then .error .malformed
          else match rest with
          | a :: b :: c :: d :: rest =>
            match unit? a b c d with
            | none => .error .malformed
            | some low =>
              if low < 0xdc00 ∨ 0xdfff < low then .error .malformed
              else (readText rest).map
                (charBytes (0x10000 + (high - 0xd800) * 0x400 + (low - 0xdc00)) ++ ·)
          | _ => .error .cut
    | 0x75 :: _ => .error .cut
    | letter :: rest =>
      match unescape? letter with
      | none => .error .malformed
      | some b => (readText rest).map (b :: ·)

/-- What follows a string, from behind its opening mark.  Only the form of its escapes matters. -/
def skipText : Bytes → Except Break Bytes
  | [] => .error .cut
  | b :: rest =>
    if b = 0x22 then .ok rest
    else if b < 0x20 then .error .malformed
    else if b ≠ 0x5c then skipText rest
    else match rest with
    | [] => .error .cut
    | 0x75 :: a :: b :: c :: d :: rest =>
      if (unit? a b c d).isSome then skipText rest else .error .malformed
    | 0x75 :: _ => .error .cut
    | letter :: rest => if (unescape? letter).isSome then skipText rest else .error .malformed

/-- The document of a string's content. -/
def textDoc (content : Bytes) : Doc :=
  match Text.ofUtf8? content with
  | some s => .text s
  | none => .faulty .text .malformed none

def scanText (s : Bytes) : Doc × Bytes :=
  match skipText s, readText s with
  | .ok rest, .ok content => (textDoc content, rest)
  | .ok rest, .error b => (.faulty .text b none, rest)
  | .error skipped, .error b => (.faulty .text b (some skipped), [])
  | .error skipped, .ok _ => (.faulty .text skipped (some skipped), [])

/-- A name: its first letter has been seen, `tail` must follow. -/
def scanName (d : Doc) (tail : Bytes) : Bytes → Doc × Bytes :=
  match tail with
  | [] => fun s => (d, s)
  | t :: tail => fun
    | [] => (.faulty .word .cut (some .cut), [])
    | b :: rest =>
      if b = t then scanName d tail rest else (.faulty .word .malformed (some .malformed), [])

def digitsValue (ds : Bytes) : Nat := ds.foldl (fun n d => n * 10 + (d - 0x30).toNat) 0

/-- The longest front of the digits that 64 bits hold, as a number, and how many digits are left. -/
def leadingValue (n : Nat) : Bytes → Nat × Nat
  | [] => (n, 0)
  | d :: rest =>
    let m := n * 10 + (d - 0x30).toNat
    if m < UInt64.size then leadingValue m rest else (n, rest.length + 1)

/-- The number of 53 binary digits that is nearest to `n`; a half goes to the even one. -/
def roundToDouble (n : Nat) : Nat :=
  let unit := Nat.pow 2 (n.log2 - 52)
  let q := n / unit
  let r := 2 * (n % unit)
  if unit < r ∨ unit = r ∧ q % 2 = 1 then (q + 1) * unit else q * unit

/-- Whether `digits` with the point moved `exponent` places to the right is too large for a number of
double precision.  The leading digits, the power of ten and their product are each rounded. -/
def overflows (digits : Bytes) (exponent : Int) : Bool :=
  let (n, dropped) := leadingValue 0 digits
  let exponent := exponent + dropped
  if n = 0 ∨ exponent < 0 then false
  else if 308 < exponent then true
  else Nat.pow 2 1024 ≤ roundToDouble (roundToDouble n * roundToDouble (Nat.pow 10 exponent.toNat))

/-- The document of a number by its parts. -/
def numberDoc (negative : Bool) (whole : Bytes) (fraction : Bytes) (exponent : Int) (isWhole : Bool) :
    Doc :=
  if overflows (whole ++ fraction) (exponent - fraction.length) then .faulty .word .malformed none
  else
    let n := digitsValue whole
    if !isWhole then .number .real
    else if negative then
      if n = 0 ∨ UInt64.size < 2 * n then .number .real else .number (.negative n)
    else if n < UInt64.size then .number (.natural n.toUInt64) else .number .real

/-- A number that goes wrong here: one who skips it takes even the end of the text for bad form. -/
def brokenNumber (s : Bytes) : Doc :=
  .faulty .word (if s.isEmpty then .cut else .malformed) (some .malformed)

/-- The sign of an exponent, and what follows it. -/
def exponentSign : Bytes → Int × Bytes
  | 0x2b :: rest => (1, rest)
  | 0x2d :: rest => (-1, rest)
  | s => (1, s)

def scanExponent (negative : Bool) (whole fraction : Bytes) (s : Bytes) : Doc × Bytes :=
  let (sign, s) := exponentSign s
  let digits := s.takeWhile isDigit
  if digits.isEmpty then (brokenNumber s, [])
  else (numberDoc negative whole fraction (sign * digitsValue digits) false, s.dropWhile isDigit)

def scanFraction (negative : Bool) (whole : Bytes) (s : Bytes) : Doc × Bytes :=
  let digits := s.takeWhile isDigit
  if digits.isEmpty then (brokenNumber s, [])
  else match s.dropWhile isDigit with
    | b :: rest =>
      if b = 0x65 ∨ b = 0x45 then scanExponent negative whole digits rest
      else (numberDoc negative whole digits 0 false, b :: rest)
    | [] => (numberDoc negative whole digits 0 false, [])

/-- A number from behind its sign. -/
def scanNumber (negative : Bool) (s : Bytes) : Doc × Bytes :=
  let whole := s.takeWhile isDigit
  if whole.isEmpty then (brokenNumber s, [])
  else if whole.head? = some 0x30 ∧ whole.length ≠ 1 then
    (.faulty .word .malformed (some .malformed), [])
  else match s.dropWhile isDigit with
    | b :: rest =>
      if b = 0x2e then scanFraction negative whole rest
      else if b = 0x65 ∨ b = 0x45 then scanExponent negative whole [] rest
      else (numberDoc negative whole [] 0 true, b :: rest)
    | [] => (numberDoc negative whole [] 0 true, [])

/-- The marks that stand for themselves. -/
def mark? (b : UInt8) : Option Token :=
  if b = 0x5b then some .openArray
  else if b = 0x5d then some .closeArray
  else if b = 0x7b then some .openObject
  else if b = 0x7d then some .closeObject
  else if b = 0x2c then some .comma
  else if b = 0x3a then some .colon
  else none

/-- The number or name that begins with the byte `b`, and what follows it. -/
def scanWord (b : UInt8) (rest : Bytes) : Option (Doc × Bytes) :=
  if b = 0x6e then some (scanName .null [0x75, 0x6c, 0x6c] rest)
  else if b = 0x74 then some (scanName (.boolean true) [0x72, 0x75, 0x65] rest)
  else if b = 0x66 then some (scanName (.boolean false) [0x61, 0x6c, 0x73, 0x65] rest)
  else if b = 0x2d then some (scanNumber true rest)
  else if isDigit b then some (scanNumber false (b :: rest))
  else none

/-- The token that begins with the byte `b`, and what follows it. -/
def scanToken (b : UInt8) (rest : Bytes) : Token × Bytes :=
  match mark? b with
  | some t => (t, rest)
  | none =>
    if b = 0x22 then (.text (scanText rest).1, (scanText rest).2)
    else match scanWord b rest with
      | some (d, rest) => (.word d, rest)
      | none => (.stray, [])

theorem length_skipText {s r : Bytes} (h : skipText s = .ok r) : r.length ≤ s.length := by
  fun_induction skipText s <;> simp_all <;> grind

theorem length_scanText (s : Bytes) : (scanText s).2.length ≤ s.length := by
  unfold scanText
  split <;> simp
  all_goals exact length_skipText ‹_›

theorem length_scanName (d : Doc) (tail s : Bytes) : (scanName d tail s).2.length ≤ s.length := by
  induction tail generalizing s with
  | nil => simp [scanName]
  | cons t tail ih =>
    cases s with
    | nil => simp [scanName]
    | cons b rest =>
      simp only [scanName]
      split
      · exact Nat.le_succ_of_le (ih rest)
      · simp

theorem length_dropWhile_le (p : UInt8 → Bool) (s : Bytes) : (s.dropWhile p).length ≤ s.length := by
  induction s with
  | nil => simp
  | cons b rest ih =>
    rw [List.dropWhile_cons]
    split
    · exact Nat.le_succ_of_le ih
    · exact Nat.le_refl _

theorem length_exponentSign (s : Bytes) : (exponentSign s).2.length ≤ s.length := by
  unfold exponentSign
  split <;> simp

theorem length_scanExponent (n : Bool) (w f s : Bytes) :
    (scanExponent n w f s).2.length ≤ s.length := by
  unfold scanExponent
  dsimp only
  split
  · simp
  · exact Nat.le_trans (length_dropWhile_le isDigit _) (length_exponentSign s)

theorem length_scanFraction (n : Bool) (w s : Bytes) :
    (scanFraction n w s).2.length ≤ s.length := by
  unfold scanFraction
  have h := length_dropWhile_le isDigit s
  dsimp only
  split
  · simp
  · split
    · rename_i b rest he
      rw [he] at h
      have := length_scanExponent n w (s.takeWhile isDigit) rest
      simp only [List.length_cons] at h
      split <;> simp <;> omega
    · simp

theorem length_scanNumber (n : Bool) (s : Bytes) : (scanNumber n s).2.length ≤ s.length - 1 := by
  unfold scanNumber
  dsimp only
  split
  · simp
  · rename_i hne
    have h : (s.dropWhile isDigit).length ≤ s.length - 1 := by
      cases s with
      | nil => simp at hne
      | cons b rest =>
        cases hb : isDigit b with
        | true => simpa [List.dropWhile_cons, hb] using length_dropWhile_le isDigit rest
        | false => simp [hb] at hne
    split
    · simp
    · split
      · rename_i b rest he
        rw [he] at h
        simp only [List.length_cons] at h
        have h1 := length_scanFraction n (s.takeWhile isDigit) rest
        have h2 := length_scanExponent n (s.takeWhile isDigit) [] rest
        split
        · omega
        · split
          · omega
          · simp only [List.length_cons]; omega
      · simp

theorem length_scanWord {b : UInt8} {rest : Bytes} {d : Doc} {after : Bytes}
    (h : scanWord b rest = some (d, after)) : after.length ≤ rest.length := by
  unfold scanWord at h
  repeat' split at h
  all_goals simp only [Option.some.injEq, reduceCtorEq] at h
  · simpa [h] using length_scanName .null [0x75, 0x6c, 0x6c] rest
  · simpa [h] using length_scanName (.boolean true) [0x72, 0x75, 0x65] rest
  · simpa [h] using length_scanName (.boolean false) [0x61, 0x6c, 0x73, 0x65] rest
  · have := length_scanNumber true rest
    rw [h] at this
    exact Nat.le_trans this (Nat.sub_le _ _)
  · simpa [h] using length_scanNumber false (b :: rest)

theorem length_scanToken (b : UInt8) (rest : Bytes) :
    (scanToken b rest).2.length ≤ rest.length := by
  unfold scanToken
  split
  · exact Nat.le_refl _
  · split
    · exact length_scanText rest
    · split
      · exact length_scanWord ‹_›
      · simp

/-- The tokens of a text, up to the first that makes it unreadable. -/
def tokens : Bytes → List Token
  | [] => []
  | b :: rest =>
    if isSpace b then tokens rest
    else
      have : (scanToken b rest).2.length < (b :: rest).length :=
        Nat.lt_succ_of_le (length_scanToken b rest)
      (scanToken b rest).1 :: tokens (scanToken b rest).2
termination_by s => s.length
decreasing_by
  · exact Nat.lt_succ_self _
  · exact this

end LedgerNode.Json
