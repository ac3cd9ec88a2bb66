import LedgerNode.Text.Category

/-!
The characters that domain names have, and what stands in a name in the place of a character: its
small letter, the plain characters that it is a form of, or nothing.
-/
namespace LedgerNode.Http.Domain

open Text

/-- Characters that are left out of a name. -/
def ignoredRanges : Ranges := #[
  (0xad, 0xad), (0x34f, 0x34f), (0x115f, 0x1160), (0x17b4, 0x17b5), (0x180b, 0x180f),
  (0x200b, 0x200b), (0x2060, 0x2064), (0x206a, 0x206f), (0x3164, 0x3164), (0xfe00, 0xfe0f),
  (0xfeff, 0xfeff), (0xffa0, 0xffa0), (0x1bca0, 0x1bca3), (0x1d173, 0x1d17a), (0xe0100, 0xe01ef)]

/-- Signs that no name has, besides the characters that are neither letters nor signs. -/
def refusedRanges : Ranges := #[
  (0xa8, 0xa8), (0xaf, 0xaf), (0xb4, 0xb4), (0xb8, 0xb8), (0x2d8, 0x2dd), (0x37a, 0x37a),
  (0x384, 0x385), (0x1fbd, 0x1fbd), (0x1fbf, 0x1fc1), (0x1fcd, 0x1fcf), (0x1fdd, 0x1fdf),
  (0x1fed, 0x1fee), (0x1ffd, 0x1ffe), (0x2017, 0x2017), (0x2024, 0x2026), (0x203e, 0x203e),
  (0x2488, 0x249b), (0x2ff0, 0x2fff), (0x309b, 0x309c), (0x31ef, 0x31ef), (0x33c2, 0x33c2),
  (0x33c7, 0x33c7), (0x33d8, 0x33d8), (0xfc5e, 0xfc63), (0xfdfa, 0xfdfb), (0xfe12, 0xfe12),
  (0xfe19, 0xfe19), (0xfe30, 0xfe30), (0xfe49, 0xfe4c), (0xfe52, 0xfe52), (0xfe70, 0xfe70),
  (0xfe72, 0xfe72), (0xfe74, 0xfe74), (0xfe76, 0xfe76), (0xfe78, 0xfe78), (0xfe7a, 0xfe7a),
  (0xfe7c, 0xfe7c), (0xfe7e, 0xfe7e), (0xffe3, 0xffe3), (0xfffc, 0xfffd), (0x1f100, 0x1f100)]

/-- Ranges of characters with the single characters that they are forms of, in turn. -/
def letterImages : List (Nat × Nat × String) := [
  (0xaa, 0xaa, "a"), (0xb2, 0xb3, "23"), (0xb9, 0xba, "1o"), (0x17f, 0x17f, "s"),
  (0x2b0, 0x2b0, "h"), (0x2b2, 0x2b3, "jr"), (0x2b7, 0x2b8, "wy"), (0x2e1, 0x2e3, "lsx"),
  (0x345, 0x345, "\u03b9"), (0x37e, 0x37e, ";"), (0x1d2c, 0x1d2c, "a"), (0x1d2e, 0x1d2e, "b"),
  (0x1d30, 0x1d31, "de"), (0x1d33, 0x1d3a, "ghijklmn"), (0x1d3c, 0x1d3c, "o"),
  (0x1d3e, 0x1d43, "prtuwa"), (0x1d47, 0x1d49, "bde"), (0x1d4d, 0x1d4d, "g"),
  (0x1d4f, 0x1d50, "km"), (0x1d52, 0x1d52, "o"), (0x1d56, 0x1d58, "ptu"), (0x1d5b, 0x1d5b, "v"),
  (0x1d62, 0x1d65, "iruv"), (0x1d9c, 0x1d9c, "c"), (0x1da0, 0x1da0, "f"), (0x1dbb, 0x1dbb, "z"),
  (0x1fef, 0x1fef, "\x60"), (0x2070, 0x2071, "0i"), (0x2074, 0x207a, "456789+"),
  (0x207c, 0x208a, "=()n0123456789+"), (0x208c, 0x208e, "=()"), (0x2090, 0x2093, "aeox"),
  (0x2095, 0x209c, "hklmnpst"), (0x2102, 0x2102, "c"), (0x210a, 0x210e, "ghhhh"),
  (0x2110, 0x2113, "iill"), (0x2115, 0x2115, "n"), (0x2119, 0x211d, "pqrrr"), (0x2124, 0x2124, "z"),
  (0x2128, 0x2128, "z"), (0x212a, 0x212a, "k"), (0x212c, 0x212d, "bc"), (0x212f, 0x2131, "eef"),
  (0x2133, 0x2134, "mo"), (0x2139, 0x2139, "i"), (0x2145, 0x2149, "ddeij"), (0x2160, 0x2160, "i"),
  (0x2164, 0x2164, "v"), (0x2169, 0x2169, "x"), (0x216c, 0x2170, "lcdmi"), (0x2174, 0x2174, "v"),
  (0x2179, 0x2179, "x"), (0x217c, 0x217f, "lcdm"), (0x2460, 0x2468, "123456789"),
  (0x24b6, 0x24e9, "abcdefghijklmnopqrstuvwxyz"), (0x24ea, 0x24ea, "0"), (0x2c7c, 0x2c7d, "jv"),
  (0x3002, 0x3002, "."), (0xa7f1, 0xa7f4, "scfq"), (0xfb29, 0xfb29, "+"), (0xfe10, 0xfe10, ","),
  (0xfe13, 0xfe16, ":;!?"), (0xfe33, 0xfe38, "__()\x7b\x7d"), (0xfe47, 0xfe48, "[]"),
  (0xfe4d, 0xfe50, "___,"), (0xfe54, 0xfe57, ";:?!"), (0xfe59, 0xfe5c, "()\x7b\x7d"),
  (0xfe5f, 0xfe66, "#&*+-<>="), (0xfe68, 0xfe6b, "\\$%@"),
  (0xff01, 0xff5e, "!\"#$%&'()*+,-./0123456789:;<=>?@abcdefghijklmnopqrstuvwxyz[\\]^_\x60abcdefghijklmnopqrstuvwxyz\x7b|\x7d~"),
  (0xff61, 0xff61, "."), (0xff9e, 0xff9f, "\u3099\u309a"), (0x107a5, 0x107a5, "q"),
  (0x1ccd6, 0x1ccef, "abcdefghijklmnopqrstuvwxyz"), (0x1ccf0, 0x1ccf9, "0123456789"),
  (0x1d400, 0x1d6a3, "abcdefghijklmnopqrstuvwxyz"), (0x1d7ce, 0x1d7ff, "0123456789"),
  (0x1f12b, 0x1f12c, "cr"), (0x1f130, 0x1f149, "abcdefghijklmnopqrstuvwxyz"),
  (0x1fbf0, 0x1fbf9, "0123456789")]

/-- Characters with the words that they and their successors are forms of. -/
def wordImages : List (Nat × String) := [
  (0x132, "ij ij"), (0x1c7, "lj lj lj nj nj nj"), (0x1f1, "dz dz dz"), (0x203c, "!!"),
  (0x2047, "?? ?! !?"), (0x20a8, "rs"), (0x2100, "a/c a/s"), (0x2105, "c/o c/u"), (0x2116, "no"),
  (0x2120, "sm tel tm"), (0x213b, "fax"), (0x2161, "ii iii iv"), (0x2165, "vi vii viii ix"),
  (0x216a, "xi xii"), (0x2171, "ii iii iv"), (0x2175, "vi vii viii ix"), (0x217a, "xi xii"),
  (0x2469, "10 11 12 13 14 15 16 17 18 19 20 (1) (2) (3) (4) (5) (6) (7) (8) (9)"),
  (0x247d, "(10) (11) (12) (13) (14) (15) (16) (17) (18) (19) (20)"),
  (0x249c, "(a) (b) (c) (d) (e) (f) (g) (h) (i) (j) (k) (l) (m) (n) (o) (p) (q)"),
  (0x24ad, "(r) (s) (t) (u) (v) (w) (x) (y) (z)"), (0x2a74, "::= == ==="),
  (0x3250, "pte 21 22 23 24 25 26 27 28 29 30 31 32 33 34 35"),
  (0x32b1, "36 37 38 39 40 41 42 43 44 45 46 47 48 49 50"), (0x32cc, "hg erg ev ltd"),
  (0x3371, "hpa da au bar ov pc dm dm2 dm3 iu"), (0x3380, "pa na"),
  (0x3383, "ma ka kb mb gb cal kcal pf nf"), (0x338e, "mg kg hz khz mhz ghz thz"),
  (0x3396, "ml dl kl fm nm"), (0x339c, "mm cm km mm2 cm2 m2 km2 mm3 cm3 m3 km3"),
  (0x33a9, "pa kpa mpa gpa rad"), (0x33b0, "ps ns"), (0x33b3, "ms pv nv"),
  (0x33b7, "mv kv mv pw nw"), (0x33bd, "mw kw mw"), (0x33c3, "bq cc cd"),
  (0x33c8, "db gy ha hp in kk km kt lm ln log lx mb mil mol ph"), (0x33d9, "ppm pr sr sv wb"),
  (0x33ff, "gal"), (0xfb00, "ff fi fl ffi ffl st st"), (0x1f101, "0, 1, 2, 3, 4, 5, 6, 7, 8, 9,"),
  (0x1f110, "(a) (b) (c) (d) (e) (f) (g) (h) (i) (j) (k) (l) (m) (n) (o) (p) (q)"),
  (0x1f121, "(r) (s) (t) (u) (v) (w) (x) (y) (z)"), (0x1f12d, "cd wz"),
  (0x1f14a, "hv mv sd ss ppv wc"), (0x1f16a, "mc md mr"), (0x1f190, "dj")]

/-- Characters that are forms of others behind ASCII, from one to another in steps.  Of which others
does not matter: no rule of names tells a form from what it is a form of. -/
def foldedRuns : List (Nat × Nat × Nat) := [
  (0xb5, 0xb5, 1), (0xbc, 0xbe, 1), (0xc0, 0xd6, 1), (0xd8, 0xde, 1), (0x100, 0x130, 2),
  (0x134, 0x134, 1), (0x136, 0x136, 1), (0x139, 0x13f, 2), (0x140, 0x141, 1), (0x143, 0x149, 2),
  (0x14a, 0x178, 2), (0x179, 0x17d, 2), (0x181, 0x182, 1), (0x184, 0x184, 1), (0x186, 0x187, 1),
  (0x189, 0x18b, 1), (0x18e, 0x191, 1), (0x193, 0x194, 1), (0x196, 0x198, 1), (0x19c, 0x19d, 1),
  (0x19f, 0x1a0, 1), (0x1a2, 0x1a6, 2), (0x1a7, 0x1a7, 1), (0x1a9, 0x1a9, 1), (0x1ac, 0x1ac, 1),
  (0x1ae, 0x1af, 1), (0x1b1, 0x1b3, 1), (0x1b5, 0x1b5, 1), (0x1b7, 0x1b8, 1), (0x1bc, 0x1bc, 1),
  (0x1c4, 0x1cd, 1), (0x1cf, 0x1db, 2), (0x1de, 0x1ee, 2), (0x1f4, 0x1f4, 1), (0x1f6, 0x1f8, 1),
  (0x1fa, 0x232, 2), (0x23a, 0x23b, 1), (0x23d, 0x23e, 1), (0x241, 0x241, 1), (0x243, 0x246, 1),
  (0x248, 0x24e, 2), (0x2b1, 0x2b6, 1), (0x2e0, 0x2e4, 1), (0x340, 0x341, 1), (0x343, 0x344, 1),
  (0x370, 0x376, 2), (0x37f, 0x38f, 1), (0x391, 0x3ab, 1), (0x3cf, 0x3d6, 1), (0x3d8, 0x3f0, 2),
  (0x3f1, 0x3f2, 1), (0x3f4, 0x3f5, 1), (0x3f7, 0x3f7, 1), (0x3f9, 0x3fa, 1), (0x3fd, 0x42f, 1),
  (0x460, 0x480, 2), (0x48a, 0x4c0, 2), (0x4c1, 0x4cd, 2), (0x4d0, 0x52e, 2), (0x531, 0x556, 1),
  (0x587, 0x587, 1), (0x675, 0x678, 1), (0x958, 0x95f, 1), (0x9dc, 0x9df, 1), (0xa33, 0xa33, 1),
  (0xa36, 0xa36, 1), (0xa59, 0xa5b, 1), (0xa5e, 0xa5e, 1), (0xb5c, 0xb5d, 1), (0xe33, 0xe33, 1),
  (0xeb3, 0xeb3, 1), (0xedc, 0xedd, 1), (0xf0c, 0xf0c, 1), (0xf43, 0xf43, 1), (0xf4d, 0xf4d, 1),
  (0xf52, 0xf52, 1), (0xf57, 0xf57, 1), (0xf5c, 0xf5c, 1), (0xf69, 0xf69, 1), (0xf73, 0xf73, 1),
  (0xf75, 0xf79, 1), (0xf81, 0xf81, 1), (0xf93, 0xf93, 1), (0xf9d, 0xf9d, 1), (0xfa2, 0xfa2, 1),
  (0xfa7, 0xfa7, 1), (0xfac, 0xfac, 1), (0xfb9, 0xfb9, 1), (0x10a0, 0x10cd, 1), (0x10fc, 0x10fc, 1),
  (0x13f8, 0x13fd, 1), (0x1c80, 0x1c89, 1), (0x1c90, 0x1cbf, 1), (0x1d2d, 0x1d2d, 1),
  (0x1d32, 0x1d32, 1), (0x1d3d, 0x1d4c, 1), (0x1d51, 0x1d6a, 1), (0x1d78, 0x1d78, 1),
  (0x1d9b, 0x1dbf, 1), (0x1e00, 0x1e94, 2), (0x1e9a, 0x1e9b, 1), (0x1e9e, 0x1efe, 2),
  (0x1f08, 0x1f0f, 1), (0x1f18, 0x1f1d, 1), (0x1f28, 0x1f2f, 1), (0x1f38, 0x1f3f, 1),
  (0x1f48, 0x1f4d, 1), (0x1f59, 0x1f5f, 1), (0x1f68, 0x1f6f, 1), (0x1f71, 0x1f7d, 2),
  (0x1f80, 0x1faf, 1), (0x1fb2, 0x1fb4, 1), (0x1fb7, 0x1fc4, 1), (0x1fc7, 0x1fcc, 1),
  (0x1fd3, 0x1fd3, 1), (0x1fd8, 0x1fdb, 1), (0x1fe3, 0x1fe3, 1), (0x1fe8, 0x1ff4, 1),
  (0x1ff7, 0x1ffc, 1), (0x2011, 0x2011, 1), (0x2033, 0x2034, 1), (0x2036, 0x2037, 1),
  (0x2057, 0x2057, 1), (0x207b, 0x2094, 1), (0x2103, 0x2103, 1), (0x2107, 0x2107, 1),
  (0x2109, 0x210f, 1), (0x2126, 0x2126, 1), (0x212b, 0x212b, 1), (0x2132, 0x2138, 1),
  (0x213c, 0x2140, 1), (0x2150, 0x215f, 1), (0x2183, 0x2183, 1), (0x2189, 0x2189, 1),
  (0x222c, 0x222d, 1), (0x222f, 0x2230, 1), (0x2329, 0x232a, 1), (0x2a0c, 0x2a0c, 1),
  (0x2adc, 0x2adc, 1), (0x2c00, 0x2c2f, 1), (0x2c60, 0x2c60, 1), (0x2c62, 0x2c64, 1),
  (0x2c67, 0x2c6d, 2), (0x2c6e, 0x2c70, 1), (0x2c72, 0x2c72, 1), (0x2c75, 0x2c75, 1),
  (0x2c7e, 0x2c80, 1), (0x2c82, 0x2ce2, 2), (0x2ceb, 0x2ceb, 1), (0x2ced, 0x2ced, 1),
  (0x2cf2, 0x2cf2, 1), (0x2d6f, 0x2d6f, 1), (0x2e9f, 0x2e9f, 1), (0x2ef3, 0x2fd5, 1),
  (0x3036, 0x3036, 1), (0x3038, 0x303a, 1), (0x309f, 0x309f, 1), (0x30ff, 0x30ff, 1),
  (0x3131, 0x318e, 1), (0x3192, 0x319f, 1), (0x3200, 0x3247, 1), (0x3260, 0x327e, 1),
  (0x3280, 0x33fe, 1), (0xa640, 0xa66c, 2), (0xa680, 0xa69c, 2), (0xa69d, 0xa69d, 1),
  (0xa722, 0xa72e, 2), (0xa732, 0xa770, 2), (0xa779, 0xa77d, 2), (0xa77e, 0xa786, 2),
  (0xa78b, 0xa78b, 1), (0xa78d, 0xa78d, 1), (0xa790, 0xa790, 1), (0xa792, 0xa792, 1),
  (0xa796, 0xa7aa, 2), (0xa7ab, 0xa7ae, 1), (0xa7b0, 0xa7b4, 1), (0xa7b6, 0xa7c4, 2),
  (0xa7c5, 0xa7c7, 1), (0xa7c9, 0xa7c9, 1), (0xa7cb, 0xa7cc, 1), (0xa7ce, 0xa7dc, 2),
  (0xa7f5, 0xa7f5, 1), (0xa7f8, 0xa7f9, 1), (0xab5c, 0xab5f, 1), (0xab69, 0xab69, 1),
  (0xab70, 0xabbf, 1), (0xf900, 0xfa0d, 1), (0xfa10, 0xfa10, 1), (0xfa12, 0xfa12, 1),
  (0xfa15, 0xfa1e, 1), (0xfa20, 0xfa20, 1), (0xfa22, 0xfa22, 1), (0xfa25, 0xfa26, 1),
  (0xfa2a, 0xfb1d, 1), (0xfb1f, 0xfbb1, 1), (0xfbd3, 0xfd3d, 1), (0xfd50, 0xfd8f, 1),
  (0xfd92, 0xfdc7, 1), (0xfdf0, 0xfdfc, 1), (0xfe11, 0xfe18, 1), (0xfe31, 0xfe44, 1),
  (0xfe51, 0xfe71, 1), (0xfe77, 0xffee, 1), (0x10400, 0x10427, 1), (0x104b0, 0x104d3, 1),
  (0x10570, 0x10595, 1), (0x10781, 0x107ba, 1), (0x10c80, 0x10cb2, 1), (0x10d50, 0x10d65, 1),
  (0x118a0, 0x118bf, 1), (0x16e40, 0x16e5f, 1), (0x16ea0, 0x16eb8, 1), (0x1d15e, 0x1d164, 1),
  (0x1d1bb, 0x1d1c0, 1), (0x1d6a4, 0x1d7cb, 1), (0x1e030, 0x1e06d, 1), (0x1e900, 0x1e921, 1),
  (0x1ee00, 0x1eebb, 1), (0x1f12a, 0x1f12a, 1), (0x1f200, 0x1f251, 1), (0x2f800, 0x2fa1d, 1)]

def letterImage? (c : Char) : Option (List Char) := do
  let (first, _, images) ← letterImages.find? fun (first, last, _) => first ≤ c.toNat && c.toNat ≤ last
  let image ← images.toList[(c.toNat - first) % images.length]?
  return [image]

def wordImage? (c : Char) : Option (List Char) :=
  wordImages.findSome? fun (first, words) =>
    if first ≤ c.toNat then ((words.splitOn " ")[c.toNat - first]?).map String.toList else none

/-- Characters that join or part the letters beside them. -/
def isJoiner (c : Char) : Bool := c.toNat == 0x200c || c.toNat == 0x200d

/-- What a name has in the place of a character, unless names do not have that character. -/
def fold? (c : Char) : Option (List Char) :=
  if c.toNat < 0x80 then some [c.toLower]
  else if ignoredRanges.has c then some []
  else if isJoiner c then some [c]
  else if isOther c || refusedRanges.has c then none
  else some (((letterImage? c).or (wordImage? c)).getD [c])

/-- Whether a character stands for itself. -/
def isFolded (c : Char) : Bool :=
  fold? c == some [c] && !foldedRuns.any fun (first, last, step) =>
    first ≤ c.toNat && c.toNat ≤ last && (c.toNat - first) % step == 0

end LedgerNode.Http.Domain
