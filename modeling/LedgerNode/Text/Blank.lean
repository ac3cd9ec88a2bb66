/-!
White space in the sense of the Unicode property of that name.
-/
namespace LedgerNode.Text

def isBlank (c : Char) : Bool :=
  let n := c.toNat
  (0x9 ≤ n && n ≤ 0xd) || n == 0x20 || n == 0x85 || n == 0xa0 || n == 0x1680 ||
    (0x2000 ≤ n && n ≤ 0x200a) || n == 0x2028 || n == 0x2029 || n == 0x202f || n == 0x205f ||
    n == 0x3000

/-- The text without the white space it begins with. -/
def trimStart (cs : List Char) : List Char := cs.dropWhile isBlank

end LedgerNode.Text
