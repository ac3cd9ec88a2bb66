import LedgerNode.Http.Host
import LedgerNode.Text.Hex

/-!
From the address of something on another host to what a request for it asks there.
-/
namespace LedgerNode.Http

/-- The host and the port of an authority, which may begin with credentials. -/
def splitAuthority (authority : List Char) : List Char × Option (List Char) :=
  let back := (authority.reverse.takeWhile (· != '@'))
  match back.span (fun c => c != ':' && c != ']') with
  | (port, ':' :: host) => (host.reverse, some port.reverse)
  | _ => (back.reverse, none)

def isPort (port : List Char) : Bool :=
  port.all Char.isDigit && Text.decimalValue port < UInt16.size

/-- Writes a character by percent signs, if it may not stand for itself. -/
def percentEncode (reserved : String) (c : Char) : List Char :=
  if c.toNat ≤ 0x20 || 0x7f ≤ c.toNat || reserved.toList.contains c then
    (Text.utf8 c.toString).flatMap fun b => '%' :: (Hex.toText [b]).toList.map Char.toUpper
  else [c]

def isSlash (c : Char) : Bool := c == '/' || c.toNat == 0x5c

/-- The segments of a path, each from behind its slash. -/
def segments : List Char → List (List Char)
  | [] => []
  | c :: rest =>
    match segments rest with
    | [] => if isSlash c then [[], []] else [[c]]
    | s :: ss => if isSlash c then [] :: s :: ss else (c :: s) :: ss

/-- A dot may be written by its code. -/
def isDots (n : Nat) (segment : List Char) : Bool :=
  ((String.ofList segment).toLower.replace "%2e" ".").toList == List.replicate n '.'

/-- Goes one segment back for two dots, and stays where it is for one.  Dots at the end lead to what is
behind the last slash there. -/
def followDots (ss : List (List Char)) : List (List Char) :=
  let kept := (ss.foldl (fun before s =>
    if isDots 2 s then before.drop 1 else if isDots 1 s then before else s :: before) []).reverse
  if (ss.getLast?.map fun s => isDots 1 s || isDots 2 s).getD false then kept ++ [[]] else kept

/-- The path of an address, as a request writes it. -/
def pathText (path : List Char) : List Char :=
  match followDots ((segments path).drop 1) with
  | [] => ['/']
  | ss => ss.flatMap fun s => '/' :: s.flatMap (percentEncode "\"#<>?\x60\x7b\x7d")

/-- A question mark and what follows it, as a request writes it. -/
def queryText (query : List Char) : List Char := query.flatMap (percentEncode "\"#<>'")

/-- What a request asks for at an address, where the address is that of some host.  Line ends and
tabulators in an address do not count, nor do further slashes before the host. -/
def targetOfAddress? (address : String) : Option String :=
  let cs := address.toList.filter fun c => !(c == '\t' || c == '\n' || c == '\r')
  let cs := (cs.takeWhile fun c => c.toNat != 35).dropWhile isSlash
  let (place, query) := cs.span (· != '?')
  let (host, port) := splitAuthority (place.takeWhile fun c => !isSlash c)
  let path := place.dropWhile fun c => !isSlash c
  if isHost (String.ofList host) && (port.map isPort).getD true then
    some (String.ofList (pathText path ++ queryText query))
  else none

end LedgerNode.Http
