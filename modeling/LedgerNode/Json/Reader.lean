import LedgerNode.Json.Token

/-!
Reading the tokens of a JSON text into a document, one token at a time.  What encloses the place
being read is kept as a context; reading needs no limit on how deep brackets stand.
-/
namespace LedgerNode.Json

/-- What encloses the place being read.  Items and members read so far are kept last first. -/
inductive Context where
  | top
  | inArray (before : List Doc) (outer : Context)
  | inObject (before : List (Doc × Doc)) (outer : Context)
  /-- The value of `key` is being read. -/
  | inMember (before : List (Doc × Doc)) (key : Doc) (outer : Context)

inductive Expect where
  | value
  | itemOrEnd
  | keyOrEnd
  | key
  | colon (key : Doc)
  | commaOrEnd
  deriving Inhabited

inductive Reading where
  | within (context : Context) (expect : Expect)
  /-- The document is complete; `trailing` says that more than white space followed it. -/
  | complete (d : Doc) (trailing : Bool)

namespace Context

/-- Puts a document in the place being read. -/
def deliver (d : Doc) : Context → Reading
  | .top => .complete d false
  | .inArray before outer => .within (.inArray (d :: before) outer) .commaOrEnd
  | .inObject before outer => .within (.inObject before outer) .commaOrEnd
  | .inMember before key outer => .within (.inObject ((key, d) :: before) outer) .commaOrEnd

/-- Closes everything that is open around the place being read, for the reason `b`. -/
def close (b : Break) : Context → Doc → Doc
  | .top, d => d
  | .inArray before outer, d => outer.close b (.array (.ofList (some b) (before.reverse ++ [d])))
  | .inObject before outer, _ => outer.close b (.object (.ofList (some b) before.reverse))
  | .inMember before key outer, d =>
    outer.close b (.object (.ofList (some b) (before.reverse ++ [(key, d)])))

/-- Ends the array or object that the place being read is in, without a further item. -/
def closeInner (b : Break) : Context → Doc
  | .top => .absent b
  | .inArray before outer => outer.close b (.array (.ofList (some b) before.reverse))
  | .inObject before outer => outer.close b (.object (.ofList (some b) before.reverse))
  | .inMember before _ outer => outer.close b (.object (.ofList (some b) before.reverse))

/-- Ends the object that the place being read is in with a member that goes wrong. -/
def closeMember (b : Break) (key value : Doc) : Context → Doc
  | .inObject before outer => (Context.inMember before key outer).close b value
  | context => context.closeInner b

end Context

/-- The document of a text in which nothing more can be read, for the reason `b`. -/
def breakOff (context : Context) (b : Break) : Expect → Doc
  | .value => context.close b (.absent b)
  | .itemOrEnd | .keyOrEnd | .commaOrEnd => context.closeInner b
  | .key => context.closeMember b (.absent b) (.absent b)
  | .colon key => context.closeMember b key (.absent b)

/-- A value begins with the token; anything else breaks the text off. -/
def readValue (context : Context) (expect : Expect) : Token → Reading
  | .openArray => .within (.inArray [] context) .itemOrEnd
  | .openObject => .within (.inObject [] context) .keyOrEnd
  | .text d => context.deliver d
  | .word d => context.deliver d
  | _ => .complete (breakOff context .malformed expect) false

/-- A key is a string; what stands in its place instead is kept, and breaks the text off. -/
def readKey (context : Context) (expect : Expect) : Token → Reading
  | .text d => .within context (.colon d)
  | .word d => .complete (context.closeMember .malformed d (.absent .malformed)) false
  | .openArray =>
    .complete (context.closeMember .malformed (.array (.stop none)) (.absent .malformed)) false
  | .openObject =>
    .complete (context.closeMember .malformed (.object (.stop none)) (.absent .malformed)) false
  | _ => .complete (breakOff context .malformed expect) false

def Reading.step : Reading → Token → Reading
  | .complete d _, _ => .complete d true
  | .within context expect, t =>
    match expect, context, t with
    | .itemOrEnd, .inArray before outer, .closeArray =>
      outer.deliver (.array (.ofList none before.reverse))
    | .keyOrEnd, .inObject before outer, .closeObject =>
      outer.deliver (.object (.ofList none before.reverse))
    | .commaOrEnd, .inArray before outer, .closeArray =>
      outer.deliver (.array (.ofList none before.reverse))
    | .commaOrEnd, .inObject before outer, .closeObject =>
      outer.deliver (.object (.ofList none before.reverse))
    | .commaOrEnd, .inArray before outer, .comma => .within (.inArray before outer) .value
    | .commaOrEnd, .inObject before outer, .comma => .within (.inObject before outer) .key
    | .commaOrEnd, context, _ => .complete (breakOff context .malformed .commaOrEnd) false
    | .colon key, .inObject before outer, .colon => .within (.inMember before key outer) .value
    | .colon key, context, _ => .complete (breakOff context .malformed (.colon key)) false
    | .value, context, t => readValue context .value t
    | .itemOrEnd, context, t => readValue context .value t
    | .keyOrEnd, context, t => readKey context .key t
    | .key, context, t => readKey context .key t

/-- The document at the end of the text, and whether more than white space followed it. -/
def Reading.finish : Reading → Doc × Bool
  | .complete d trailing => (d, trailing)
  | .within context expect => (breakOff context .cut expect, false)

/-- The document of a text, and whether more than white space follows it. -/
def read (s : Bytes) : Doc × Bool := ((tokens s).foldl Reading.step (.within .top .value)).finish

end LedgerNode.Json
