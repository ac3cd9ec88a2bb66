/-!
Labels of domain names whose letters are written by others: first come the ASCII letters of the label,
and the numbers behind the last hyphen say which letters are put in between them, and where.
-/
namespace LedgerNode.Http.Domain.Punycode

def digit? (c : Char) : Option Nat :=
  if 'a' ≤ c ∧ c ≤ 'z' then some (c.toNat - 'a'.toNat)
  else if c.isDigit then some (26 + (c.toNat - '0'.toNat))
  else none

/-- A digit below its threshold is the last one of its number. -/
def threshold (place bias : Nat) : Nat := min 26 (max 1 (place - bias))

/-- The bias of the digits behind a number that moved the place by `delta`. -/
def biasOf (delta place : Nat) : Nat :=
  if 455 < delta then biasOf (delta / 35) (place + 36) else place + 36 * delta / (delta + 38)

/-- How far a label has been put together. -/
structure Progress where
  letters : List Char
  /-- No letter to come has a code point below this one. -/
  code : Nat
  /-- Where the letter put in last ends. -/
  position : Nat
  bias : Nat

namespace Progress

def start (letters : List Char) : Progress := ⟨letters, 0x80, 0, 72⟩

/-- Puts in the letter that a number stands for.  It counts the places behind the last letter put in,
to the end of the label and then through the label again for every further code point. -/
def insert? (p : Progress) (n : Nat) : Option Progress :=
  let count := p.letters.length + 1
  let code := p.code + (p.position + n) / count
  let position := (p.position + n) % count
  let delta := if p.position = 0 then n / 700 else n / 2
  if code.isValidChar then
    some ⟨p.letters.take position ++ Char.ofNat code :: p.letters.drop position, code, position + 1,
      biasOf (delta + delta / count) 0⟩
  else none

theorem length_letters_of_insert? {p q : Progress} {n : Nat} (h : p.insert? n = some q) :
    q.letters.length = p.letters.length + 1 := by
  simp only [insert?] at h
  split at h
  · cases h
    simp only [List.length_append, List.length_take, List.length_cons, List.length_drop]
    have := Nat.mod_lt (p.position + n) (Nat.succ_pos p.letters.length)
    omega
  · cases h

/-- Puts in all letters.  Of the current number, `sum` has been read; the next digit of it counts
`weight` times. -/
def insertAll (p : Progress) (sum weight place : Nat) : List Char → Option (List Char)
  | [] => if weight = 1 then some p.letters else none
  | c :: rest =>
    match digit? c with
    | none => none
    | some d =>
      let t := threshold place p.bias
      if d < t then
        match p.insert? (sum + d * weight) with
        | some p => insertAll p 0 1 36 rest
        | none => none
      else insertAll p (sum + d * weight) (weight * (36 - t)) (place + 36) rest

end Progress

/-- The letters of a label. -/
def decode? (label : List Char) : Option (List Char) :=
  let digits := (label.reverse.takeWhile (· != '-')).reverse
  let letters := label.take (label.length - digits.length - 1)
  if letters.isEmpty then (Progress.start []).insertAll 0 1 36 label
  else if letters.all (·.toNat < 0x80) then (Progress.start letters).insertAll 0 1 36 digits
  else none

end LedgerNode.Http.Domain.Punycode
