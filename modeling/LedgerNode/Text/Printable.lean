import LedgerNode.Text.Category

/-!
Characters that quoted text shows as themselves.
-/
namespace LedgerNode.Text

/-- Letters that show nothing and only fill a place. -/
def isFiller (c : Char) : Bool := [0x115f, 0x1160, 0x3164, 0xffa0].contains c.toNat

def isPrintable (c : Char) : Bool := !(isOther c || isExtending c || isFiller c)

end LedgerNode.Text
