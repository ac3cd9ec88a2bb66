import LedgerNode.Json.Decode
import LedgerNode.Text.Hex
import LedgerNode.Text.Quoted

/-!
Accounts: forty hexadecimal digits, with or without `0x` before them.  An account is the text it was
written as, so two spellings of one number are two accounts.
-/
namespace LedgerNode

/-- The digits of an address, behind the marker if there is one. -/
def addressDigits : Bytes → Bytes
  | 0x30 :: 0x78 :: rest => rest
  | 0x30 :: 0x58 :: rest => rest
  | s => s

def isAddress (text : String) : Bool :=
  let digits := addressDigits (Text.utf8 text)
  digits.length == 40 && digits.all Hex.isDigit

structure Account where
  text : String
  isAddress_text : isAddress text = true
  deriving DecidableEq

/-- The text is not an address. -/
structure AccountError where
  text : String
  deriving DecidableEq, Repr

def AccountError.message (e : AccountError) : String :=
  "account " ++ Text.quote e.text ++ " is not a valid hex address"

namespace Account

def ofText (text : String) : Except AccountError Account :=
  if h : isAddress text then .ok ⟨text, h⟩ else .error ⟨text⟩

instance : ToString Account := ⟨text⟩

/-- Accounts are ordered as their texts are. -/
instance : Ord Account := ⟨compareOn Account.text⟩

instance : Std.TransOrd Account := inferInstanceAs (Std.TransCmp (compareOn Account.text))

instance : Std.LawfulEqOrd Account where
  eq_of_compare {a b} h := by
    have : a.text = b.text := Std.LawfulEqOrd.eq_of_compare h
    cases a; cases b; simp_all

@[simp] theorem ofText_text (a : Account) : ofText a.text = .ok a := by
  simp [ofText, a.isAddress_text]

def toJson (a : Account) : Json.Value := .text a.text

def parseJson (s : String) : Except Json.ContentError Account :=
  match ofText s with
  | .ok a => .ok a
  | .error e => .error (.detail e.message)

def decoder : Json.Decoder Account := Json.Decoder.parsed parseJson

end Account
end LedgerNode
