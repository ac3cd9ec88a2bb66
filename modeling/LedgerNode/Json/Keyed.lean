import LedgerNode.Json.Doc
import LedgerNode.SortedMap

/-!
Documents and values whose objects are maps: members stand in the order of their keys, and of several
with one key the last counts.
-/
namespace LedgerNode.Json

/-- The members of a map. -/
def Members.ofMap (m : SortedMap String Doc) : Members :=
  .ofList none (m.entries.map fun (k, d) => (.text k, d))

mutual

/-- The document with all its objects as maps. -/
def Doc.keyed : Doc → Doc
  | .array items => .array items.keyed
  | .object members => .object (.ofMap (.ofList members.keyed))
  | d => d

def Items.keyed : Items → Items
  | .stop fault => .stop fault
  | .item d rest => .item d.keyed rest.keyed

def Members.keyed : Members → List (String × Doc)
  | .stop _ => []
  | .member (.text k) d rest => (k, d.keyed) :: rest.keyed
  | .member _ _ rest => rest.keyed

end

mutual

/-- The value with all its objects as maps. -/
def Value.keyed : Value → Value
  | .array items => .array (keyedItems items)
  | .object members => .object (SortedMap.ofList (keyedMembers members)).entries
  | v => v

def keyedItems : List Value → List Value
  | [] => []
  | v :: rest => v.keyed :: keyedItems rest

def keyedMembers : List (String × Value) → List (String × Value)
  | [] => []
  | (k, v) :: rest => (k, v.keyed) :: keyedMembers rest

end

namespace Doc

/-- The member of an object with a key; null where there is none. -/
def member (d : Doc) (key : String) : Doc :=
  match d with
  | .object members => ((members.toList.reverse.lookup key)).getD .null
  | _ => .null

def has (d : Doc) (key : String) : Bool :=
  match d with
  | .object members => (members.toList.lookup key).isSome
  | _ => false

/-- The items of an array; none, if the document is not one. -/
def toItems : Doc → List Doc
  | .array items => items.toList
  | _ => []

/-- The document with a member changed, where it has that member. -/
def mapMember (d : Doc) (key : String) (f : Doc → Doc) : Doc :=
  match d with
  | .object members =>
    .object (.ofList none (members.toList.map fun (k, m) => (.text k, if k = key then f m else m)))
  | d => d

end Doc
end LedgerNode.Json
