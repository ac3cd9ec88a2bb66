import LedgerNode.Text.Category

/-!
The directions in which labels of domain names are written.  Letters of both directions do not meet
in a label, and a label ends where its letters or digits end.
-/
namespace LedgerNode.Http.Domain

open Text

/-- How a character takes part in the direction of the text around it. -/
inductive Direction where
  | left
  | right
  | digit
  | arabicDigit
  | mark
  | neutral
  deriving DecidableEq, Repr

def digitRanges : Ranges := #[(0x30, 0x39), (0x6f0, 0x6f9), (0x102e1, 0x102fb)]

def arabicDigitRanges : Ranges := #[
  (0x660, 0x669), (0x66b, 0x66c), (0x10d30, 0x10d39), (0x10e60, 0x10e7e)]

/-- Signs and punctuation, where no mark or digit stands between them. -/
def neutralRanges : Ranges := #[
  (0x0, 0x60), (0x7b, 0xb1), (0xb6, 0xbf), (0xd7, 0xd7), (0xf7, 0xf7), (0x2b9, 0x2ba),
  (0x2c2, 0x2cf), (0x2d2, 0x2df), (0x2e5, 0x2ed), (0x2ef, 0x2ff), (0x374, 0x375), (0x387, 0x387),
  (0x3f6, 0x3f6), (0x58a, 0x58f), (0x606, 0x607), (0x609, 0x60a), (0x60c, 0x60c), (0x60e, 0x60f),
  (0x66a, 0x66a), (0x6de, 0x6de), (0x6e9, 0x6e9), (0x7f6, 0x7f9), (0x9f2, 0x9f3), (0x9fb, 0x9fb),
  (0xaf1, 0xaf1), (0xbf3, 0xbfa), (0xc78, 0xc7e), (0xe3f, 0xe3f), (0xf3a, 0xf3d), (0x1390, 0x1399),
  (0x1400, 0x1400), (0x169b, 0x169c), (0x17db, 0x17db), (0x17f0, 0x180a), (0x1940, 0x1945),
  (0x19de, 0x19ff), (0x200c, 0x208b), (0x20a0, 0x2104), (0x2108, 0x2109), (0x2114, 0x2125),
  (0x2127, 0x2129), (0x212e, 0x212e), (0x213a, 0x213a), (0x2140, 0x214d), (0x2150, 0x215f),
  (0x2189, 0x2335), (0x237b, 0x2394), (0x2396, 0x26ab), (0x26ad, 0x27ff), (0x2900, 0x2bff),
  (0x2ce5, 0x2cea), (0x2cf9, 0x2cff), (0x2e00, 0x3004), (0x3008, 0x3020), (0x3030, 0x3030),
  (0x3036, 0x3037), (0x303d, 0x303f), (0x30a0, 0x30a0), (0x30fb, 0x30fb), (0x31c0, 0x31e5),
  (0x321d, 0x321e), (0x327c, 0x327e), (0x33de, 0x33df), (0x4dc0, 0x4dff), (0xa490, 0xa4c6),
  (0xa60d, 0xa60f), (0xa673, 0xa67f), (0xa700, 0xa721), (0xa788, 0xa788), (0xa828, 0xa82b),
  (0xa838, 0xa839), (0xa874, 0xa877), (0xab6a, 0xab6b), (0xfbc3, 0xfbd2), (0xfd3e, 0xfd4f),
  (0xfd90, 0xfd91), (0xfdc8, 0xfdcf), (0xfdfd, 0xfe5e), (0xff5f, 0xff65), (0xffe0, 0xffee),
  (0x10101, 0x10101), (0x10140, 0x1018c), (0x10190, 0x101a0), (0x1091f, 0x1091f),
  (0x10b39, 0x10b3f), (0x10d6e, 0x10d6e), (0x10d8e, 0x10d8f), (0x10ed0, 0x10ed8),
  (0x11052, 0x11065), (0x11660, 0x1166c), (0x11fd5, 0x11ff1), (0x16fe2, 0x16fe2),
  (0x1cc00, 0x1cef0), (0x1d1e9, 0x1d245), (0x1d300, 0x1d356), (0x1d6db, 0x1d6db),
  (0x1d715, 0x1d715), (0x1d74f, 0x1d74f), (0x1d789, 0x1d789), (0x1d7c3, 0x1d7c3),
  (0x1e2ff, 0x1e2ff), (0x1eef0, 0x1f10f), (0x1f12f, 0x1f12f), (0x1f16d, 0x1f16f),
  (0x1f1ad, 0x1f1ad), (0x1f260, 0x1fbfa)]

/-- Where letters run from the right, apart from what the other ranges hold. -/
def rightRanges : Ranges := #[(0x5be, 0x8c9), (0xfb1d, 0xfefc), (0x10800, 0x10ff6), (0x1e800, 0x1eebb)]

def direction (c : Char) : Direction :=
  if isExtending c then .mark
  else if digitRanges.has c then .digit
  else if arabicDigitRanges.has c then .arabicDigit
  else if neutralRanges.has c then .neutral
  else if rightRanges.has c then .right
  else .left

/-- Whether a label calls for all labels to be in order. -/
def isRightward (label : List Char) : Bool :=
  label.any fun c => [.right, .arabicDigit].contains (direction c)

/-- A label of one direction begins with a letter of it and ends with one or with a digit, marks not
counted. -/
def isDirected (label : List Char) : Bool :=
  let ds := label.map direction
  let last := (ds.reverse.dropWhile (· == .mark)).headD .neutral
  match ds with
  | [] => true
  | .left :: _ =>
    [.left, .digit].contains last && !ds.any fun d => [.right, .arabicDigit].contains d
  | .right :: _ =>
    [.right, .digit, .arabicDigit].contains last && !ds.contains .left &&
      !(ds.contains .digit && ds.contains .arabicDigit)
  | _ => false

end LedgerNode.Http.Domain
