import LedgerNode.Http.Domain.Direction
import LedgerNode.Http.Domain.Joining
import LedgerNode.Http.Domain.Punycode

/-!
Domain names: how a text that names a host is read as labels, and which texts do not name one.
-/
namespace LedgerNode.Http.Domain

/-- ASCII characters that no name has. -/
def isForbidden (c : Char) : Bool :=
  c.toNat ≤ 0x20 || c.toNat == 0x7f || "\"#%/:<>?@[\\]^\x60\x7b|\x7d".toList.contains c

/-- A label that begins so has its letters written by code. -/
def codeMark : List Char := "xn--".toList

/-- The letters of a label with all its characters folded. -/
def letters? (label : List Char) : Option (List Char) :=
  if codeMark.isPrefixOf label then
    (Punycode.decode? (label.drop codeMark.length)).filter fun letters =>
      letters.any (0x80 ≤ ·.toNat) && letters.all isFolded && !codeMark.isPrefixOf letters
  else some label

/-- A label does not begin with a mark. -/
def isLabel (letters : List Char) : Bool :=
  !(letters.head?.map Text.isMark).getD false && areJoinersPlaced [] letters

/-- The labels of a name, in the letters that it stands for. -/
def labels? (name : String) : Option (List (List Char)) := do
  let folded := (← name.toList.mapM fold?).flatten
  if folded.any isForbidden then none
  let labels ← (((String.ofList folded).splitOn ".").map String.toList).mapM letters?
  if labels.all isLabel && (!labels.any isRightward || labels.all isDirected) then some labels
  else none

end LedgerNode.Http.Domain
