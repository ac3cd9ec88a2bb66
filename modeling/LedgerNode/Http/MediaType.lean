/-!
Media types of request bodies: two names with a slash between them, and parameters behind
semicolons.
-/
namespace LedgerNode.Http

/-- The characters of names in a header, apart from letters and digits. -/
def tokenMarks : List Char := "!#$%&'*+-.^_~".toList ++ [Char.ofNat 96, Char.ofNat 124]

def isTokenChar (c : Char) : Bool := c.isAlphanum || tokenMarks.contains c

def isQuotationMark (c : Char) : Bool := c.toNat == 34

/-- Characters that may stand between quotation marks. -/
def isQuotable (c : Char) : Bool := 0x20 ≤ c.toNat && c.toNat < 0x7f

/-- Where a reader of parameters stands. -/
inductive ParameterPlace where
  | beforeName
  | inName
  | beforeValue
  | inValue
  /-- Behind the mark that opens a quoted value, where another mark is part of it. -/
  | behindOpening
  | inQuoted
  | behindQuoted
  deriving DecidableEq, Repr

namespace ParameterPlace

/-- Where the reader stands behind a further character, if that may follow. -/
def next? : ParameterPlace → Char → Option ParameterPlace
  | beforeName, c => if c == ' ' then some beforeName else if isTokenChar c then some inName else none
  | inName, c => if isTokenChar c then some inName else if c == '=' then some beforeValue else none
  | beforeValue, c =>
    if isQuotationMark c then some behindOpening else if isTokenChar c then some inValue else none
  | inValue, c => if isTokenChar c then some inValue else if c == ';' then some beforeName else none
  | behindOpening, c => if isQuotable c then some inQuoted else none
  | inQuoted, c =>
    if isQuotationMark c then some behindQuoted else if isQuotable c then some inQuoted else none
  | behindQuoted, c =>
    if c == ' ' then some behindQuoted else if c == ';' then some beforeName else none

/-- The parameters may end here. -/
def isEnd : ParameterPlace → Bool
  | beforeName | beforeValue | inValue | behindQuoted => true
  | inName | behindOpening | inQuoted => false

end ParameterPlace

/-- Whether a text is what may follow the semicolon behind the names. -/
def areParameters (cs : List Char) : Bool :=
  ((cs.foldlM ParameterPlace.next? .beforeName).map (·.isEnd)).getD false

def json : List Char := "json".toList

/-- Whether a name is that of JSON, or its suffix behind the last plus sign is, or what that stands
behind.  A plus sign that begins the name sets nothing apart. -/
def isJsonName (name : List Char) : Bool :=
  let name := name.map Char.toLower
  match name.reverse.span (· != '+') with
  | (_, []) => name == json
  | (suffix, _ :: stem) => !stem.isEmpty && (suffix.reverse == json || stem.reverse == json)

/-- Whether a media type is that of JSON text. -/
def isJsonMediaType (mediaType : String) : Bool :=
  match mediaType.toList.span isTokenChar with
  | (_ :: _, '/' :: rest) =>
    let (name, rest) := rest.span isTokenChar
    isJsonName name &&
      match rest with
      | [] => true
      | ';' :: parameters => areParameters parameters
      | _ => false
  | _ => false

end LedgerNode.Http
