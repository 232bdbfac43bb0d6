/-!
# Letters and digits

A class of characters is listed as runs: every `step`-th code point from `first` to `last`. In many
scripts upper and lower case alternate, so a step of two lists the lower-case half of a range.

The characters with the Unicode property `Lowercase`, and those with the property `Alphabetic` or a
numeric category, are listed as of version 17.
-/

namespace UnionChecker.Text

/-- Every `step`-th code point from `first` to `last`. -/
structure Run where
  first : Nat
  last : Nat
  step : Nat
deriving DecidableEq, Repr

/-- Runs without steps, each given by its first code point and its length. -/
def spans (runs : List (Nat × Nat)) : List Run :=
  runs.map fun (first, length) => ⟨first, first + length - 1, 1⟩

/-- Whether a code point is in a run. -/
def Run.contains (r : Run) (code : Nat) : Bool :=
  decide (r.first ≤ code) && decide (code ≤ r.last) && (code - r.first) % r.step == 0

/-- Whether a character is in one of several runs. -/
def inRuns (runs : List Run) (c : Char) : Bool := runs.any fun r => r.contains c.toNat

/-- The runs of lower-case characters, those in which the cases alternate last. -/
def lowercaseRuns : List Run :=
  spans
    [(0x61, 26), (0xaa, 1), (0xb5, 1), (0xba, 1), (0xdf, 24), (0xf8, 8), (0x137, 2), (0x148, 2),
      (0x17e, 3), (0x188, 1), (0x18c, 2), (0x192, 1), (0x195, 1), (0x199, 3), (0x19e, 1),
      (0x1a8, 1), (0x1aa, 2), (0x1ad, 1), (0x1b0, 1), (0x1b9, 2), (0x1bd, 3), (0x1c6, 1),
      (0x1c9, 1), (0x1dc, 2), (0x1ef, 2), (0x233, 7), (0x23c, 1), (0x23f, 2), (0x242, 1),
      (0x24f, 69), (0x296, 35), (0x2c0, 2), (0x2e0, 5), (0x345, 1), (0x377, 1), (0x37a, 4),
      (0x390, 1), (0x3ac, 35), (0x3d0, 2), (0x3d5, 3), (0x3ef, 5), (0x3f5, 1), (0x3f8, 1),
      (0x3fb, 2), (0x430, 48), (0x4ce, 2), (0x560, 41), (0x10d0, 43), (0x10fc, 4), (0x13f8, 6),
      (0x1c80, 9), (0x1c8a, 1), (0x1d00, 192), (0x1e95, 9), (0x1eff, 9), (0x1f10, 6), (0x1f20, 8),
      (0x1f30, 8), (0x1f40, 6), (0x1f50, 8), (0x1f60, 8), (0x1f70, 14), (0x1f80, 8), (0x1f90, 8),
      (0x1fa0, 8), (0x1fb0, 5), (0x1fb6, 2), (0x1fbe, 1), (0x1fc2, 3), (0x1fc6, 2), (0x1fd0, 4),
      (0x1fd6, 2), (0x1fe0, 8), (0x1ff2, 3), (0x1ff6, 2), (0x2071, 1), (0x207f, 1), (0x2090, 13),
      (0x210a, 1), (0x210e, 2), (0x2113, 1), (0x212f, 1), (0x2134, 1), (0x2139, 1), (0x213c, 2),
      (0x2146, 4), (0x214e, 1), (0x2170, 16), (0x2184, 1), (0x24d0, 26), (0x2c30, 48), (0x2c61, 1),
      (0x2c65, 2), (0x2c71, 1), (0x2c73, 2), (0x2c76, 8), (0x2ce3, 2), (0x2cf3, 1), (0x2d00, 38),
      (0x2d27, 1), (0x2d2d, 1), (0xa69b, 3), (0xa72f, 3), (0xa76f, 10), (0xa791, 1), (0xa793, 3),
      (0xa7af, 1), (0xa7f1, 4), (0xa7f6, 1), (0xa7f8, 3), (0xab30, 43), (0xab5c, 14), (0xab70, 80),
      (0xfb00, 7), (0xfb13, 5), (0xff41, 26), (0x10428, 40), (0x104d8, 36), (0x10597, 11),
      (0x105a3, 15), (0x105b3, 7), (0x105bb, 2), (0x10780, 1), (0x10783, 3), (0x10787, 42),
      (0x107b2, 9), (0x10cc0, 51), (0x10d70, 22), (0x118c0, 32), (0x16e60, 32), (0x16ebb, 25),
      (0x1d41a, 26), (0x1d44e, 7), (0x1d456, 18), (0x1d482, 26), (0x1d4b6, 4), (0x1d4bb, 1),
      (0x1d4bd, 7), (0x1d4c5, 11), (0x1d4ea, 26), (0x1d51e, 26), (0x1d552, 26), (0x1d586, 26),
      (0x1d5ba, 26), (0x1d5ee, 26), (0x1d622, 26), (0x1d656, 26), (0x1d68a, 28), (0x1d6c2, 25),
      (0x1d6dc, 6), (0x1d6fc, 25), (0x1d716, 6), (0x1d736, 25), (0x1d750, 6), (0x1d770, 25),
      (0x1d78a, 6), (0x1d7aa, 25), (0x1d7c4, 6), (0x1d7cb, 1), (0x1df00, 10), (0x1df0b, 20),
      (0x1df25, 6), (0x1e030, 62), (0x1e922, 34)] ++
  [⟨0x101, 0x135, 2⟩, ⟨0x13a, 0x146, 2⟩, ⟨0x14b, 0x177, 2⟩, ⟨0x17a, 0x17c, 2⟩, ⟨0x183, 0x185, 2⟩,
    ⟨0x1a1, 0x1a5, 2⟩, ⟨0x1b4, 0x1b6, 2⟩, ⟨0x1cc, 0x1da, 2⟩, ⟨0x1df, 0x1ed, 2⟩, ⟨0x1f3, 0x1f5, 2⟩,
    ⟨0x1f9, 0x231, 2⟩, ⟨0x247, 0x24d, 2⟩, ⟨0x371, 0x373, 2⟩, ⟨0x3d9, 0x3ed, 2⟩, ⟨0x461, 0x481, 2⟩,
    ⟨0x48b, 0x4bf, 2⟩, ⟨0x4c2, 0x4cc, 2⟩, ⟨0x4d1, 0x52f, 2⟩, ⟨0x1e01, 0x1e93, 2⟩,
    ⟨0x1e9f, 0x1efd, 2⟩, ⟨0x2c68, 0x2c6c, 2⟩, ⟨0x2c81, 0x2ce1, 2⟩, ⟨0x2cec, 0x2cee, 2⟩,
    ⟨0xa641, 0xa66d, 2⟩, ⟨0xa681, 0xa699, 2⟩, ⟨0xa723, 0xa72d, 2⟩, ⟨0xa733, 0xa76d, 2⟩,
    ⟨0xa77a, 0xa77c, 2⟩, ⟨0xa77f, 0xa787, 2⟩, ⟨0xa78c, 0xa78e, 2⟩, ⟨0xa797, 0xa7a9, 2⟩,
    ⟨0xa7b5, 0xa7c3, 2⟩, ⟨0xa7c8, 0xa7ca, 2⟩, ⟨0xa7cd, 0xa7db, 2⟩]

/-- Whether a character is in lower case. -/
def isLowercase (c : Char) : Bool := inRuns lowercaseRuns c

/-- The runs of letters and digits, in order. -/
def alphanumericRuns : List Run :=
  spans
    [(0x30, 10), (0x41, 26), (0x61, 26), (0xaa, 1), (0xb2, 2), (0xb5, 1), (0xb9, 2), (0xbc, 3),
      (0xc0, 23), (0xd8, 31), (0xf8, 458), (0x2c6, 12), (0x2e0, 5), (0x2ec, 1), (0x2ee, 1),
      (0x345, 1), (0x363, 18), (0x376, 2), (0x37a, 4), (0x37f, 1), (0x386, 1), (0x388, 3),
      (0x38c, 1), (0x38e, 20), (0x3a3, 83), (0x3f7, 139), (0x48a, 166), (0x531, 38), (0x559, 1),
      (0x560, 41), (0x5b0, 14), (0x5bf, 1), (0x5c1, 2), (0x5c4, 2), (0x5c7, 1), (0x5d0, 27),
      (0x5ef, 4), (0x610, 11), (0x620, 56), (0x659, 17), (0x66e, 102), (0x6d5, 8), (0x6e1, 8),
      (0x6ed, 16), (0x6ff, 1), (0x710, 48), (0x74d, 101), (0x7c0, 43), (0x7f4, 2), (0x7fa, 1),
      (0x800, 24), (0x81a, 19), (0x840, 25), (0x860, 11), (0x870, 24), (0x889, 7), (0x897, 1),
      (0x8a0, 42), (0x8d4, 12), (0x8e3, 7), (0x8f0, 76), (0x93d, 16), (0x94e, 3), (0x955, 15),
      (0x966, 10), (0x971, 19), (0x985, 8), (0x98f, 2), (0x993, 22), (0x9aa, 7), (0x9b2, 1),
      (0x9b6, 4), (0x9bd, 8), (0x9c7, 2), (0x9cb, 2), (0x9ce, 1), (0x9d7, 1), (0x9dc, 2),
      (0x9df, 5), (0x9e6, 12), (0x9f4, 6), (0x9fc, 1), (0xa01, 3), (0xa05, 6), (0xa0f, 2),
      (0xa13, 22), (0xa2a, 7), (0xa32, 2), (0xa35, 2), (0xa38, 2), (0xa3e, 5), (0xa47, 2),
      (0xa4b, 2), (0xa51, 1), (0xa59, 4), (0xa5e, 1), (0xa66, 16), (0xa81, 3), (0xa85, 9),
      (0xa8f, 3), (0xa93, 22), (0xaaa, 7), (0xab2, 2), (0xab5, 5), (0xabd, 9), (0xac7, 3),
      (0xacb, 2), (0xad0, 1), (0xae0, 4), (0xae6, 10), (0xaf9, 4), (0xb01, 3), (0xb05, 8),
      (0xb0f, 2), (0xb13, 22), (0xb2a, 7), (0xb32, 2), (0xb35, 5), (0xb3d, 8), (0xb47, 2),
      (0xb4b, 2), (0xb56, 2), (0xb5c, 2), (0xb5f, 5), (0xb66, 10), (0xb71, 7), (0xb82, 2),
      (0xb85, 6), (0xb8e, 3), (0xb92, 4), (0xb99, 2), (0xb9c, 1), (0xb9e, 2), (0xba3, 2),
      (0xba8, 3), (0xbae, 12), (0xbbe, 5), (0xbc6, 3), (0xbca, 3), (0xbd0, 1), (0xbd7, 1),
      (0xbe6, 13), (0xc00, 13), (0xc0e, 3), (0xc12, 23), (0xc2a, 16), (0xc3d, 8), (0xc46, 3),
      (0xc4a, 3), (0xc55, 2), (0xc58, 3), (0xc5c, 2), (0xc60, 4), (0xc66, 10), (0xc78, 7),
      (0xc80, 4), (0xc85, 8), (0xc8e, 3), (0xc92, 23), (0xcaa, 10), (0xcb5, 5), (0xcbd, 8),
      (0xcc6, 3), (0xcca, 3), (0xcd5, 2), (0xcdc, 3), (0xce0, 4), (0xce6, 10), (0xcf1, 3),
      (0xd00, 13), (0xd0e, 3), (0xd12, 41), (0xd3d, 8), (0xd46, 3), (0xd4a, 3), (0xd4e, 1),
      (0xd54, 16), (0xd66, 19), (0xd7a, 6), (0xd81, 3), (0xd85, 18), (0xd9a, 24), (0xdb3, 9),
      (0xdbd, 1), (0xdc0, 7), (0xdcf, 6), (0xdd6, 1), (0xdd8, 8), (0xde6, 10), (0xdf2, 2),
      (0xe01, 58), (0xe40, 7), (0xe4d, 1), (0xe50, 10), (0xe81, 2), (0xe84, 1), (0xe86, 5),
      (0xe8c, 24), (0xea5, 1), (0xea7, 19), (0xebb, 3), (0xec0, 5), (0xec6, 1), (0xecd, 1),
      (0xed0, 10), (0xedc, 4), (0xf00, 1), (0xf20, 20), (0xf40, 8), (0xf49, 36), (0xf71, 19),
      (0xf88, 16), (0xf99, 36), (0x1000, 55), (0x1038, 1), (0x103b, 15), (0x1050, 78), (0x10a0, 38),
      (0x10c7, 1), (0x10cd, 1), (0x10d0, 43), (0x10fc, 333), (0x124a, 4), (0x1250, 7), (0x1258, 1),
      (0x125a, 4), (0x1260, 41), (0x128a, 4), (0x1290, 33), (0x12b2, 4), (0x12b8, 7), (0x12c0, 1),
      (0x12c2, 4), (0x12c8, 15), (0x12d8, 57), (0x1312, 4), (0x1318, 67), (0x1369, 20),
      (0x1380, 16), (0x13a0, 86), (0x13f8, 6), (0x1401, 620), (0x166f, 17), (0x1681, 26),
      (0x16a0, 75), (0x16ee, 11), (0x1700, 20), (0x171f, 21), (0x1740, 20), (0x1760, 13),
      (0x176e, 3), (0x1772, 2), (0x1780, 52), (0x17b6, 19), (0x17d7, 1), (0x17dc, 1), (0x17e0, 10),
      (0x17f0, 10), (0x1810, 10), (0x1820, 89), (0x1880, 43), (0x18b0, 70), (0x1900, 31),
      (0x1920, 12), (0x1930, 9), (0x1946, 40), (0x1970, 5), (0x1980, 44), (0x19b0, 26),
      (0x19d0, 11), (0x1a00, 28), (0x1a20, 63), (0x1a61, 20), (0x1a80, 10), (0x1a90, 10),
      (0x1aa7, 1), (0x1abf, 2), (0x1acc, 3), (0x1b00, 52), (0x1b35, 15), (0x1b45, 8), (0x1b50, 10),
      (0x1b80, 42), (0x1bac, 58), (0x1be7, 11), (0x1c00, 55), (0x1c40, 10), (0x1c4d, 49),
      (0x1c80, 11), (0x1c90, 43), (0x1cbd, 3), (0x1ce9, 4), (0x1cee, 6), (0x1cf5, 2), (0x1cfa, 1),
      (0x1d00, 192), (0x1dd3, 34), (0x1e00, 278), (0x1f18, 6), (0x1f20, 38), (0x1f48, 6),
      (0x1f50, 8), (0x1f59, 1), (0x1f5b, 1), (0x1f5d, 1), (0x1f5f, 31), (0x1f80, 53), (0x1fb6, 7),
      (0x1fbe, 1), (0x1fc2, 3), (0x1fc6, 7), (0x1fd0, 4), (0x1fd6, 6), (0x1fe0, 13), (0x1ff2, 3),
      (0x1ff6, 7), (0x2070, 2), (0x2074, 6), (0x207f, 11), (0x2090, 13), (0x2102, 1), (0x2107, 1),
      (0x210a, 10), (0x2115, 1), (0x2119, 5), (0x2124, 1), (0x2126, 1), (0x2128, 1), (0x212a, 4),
      (0x212f, 11), (0x213c, 4), (0x2145, 5), (0x214e, 1), (0x2150, 58), (0x2460, 60), (0x24b6, 74),
      (0x2776, 30), (0x2c00, 229), (0x2ceb, 4), (0x2cf2, 2), (0x2cfd, 1), (0x2d00, 38), (0x2d27, 1),
      (0x2d2d, 1), (0x2d30, 56), (0x2d6f, 1), (0x2d80, 23), (0x2da0, 7), (0x2da8, 7), (0x2db0, 7),
      (0x2db8, 7), (0x2dc0, 7), (0x2dc8, 7), (0x2dd0, 7), (0x2dd8, 7), (0x2de0, 32), (0x2e2f, 1),
      (0x3005, 3), (0x3021, 9), (0x3031, 5), (0x3038, 5), (0x3041, 86), (0x309d, 3), (0x30a1, 90),
      (0x30fc, 4), (0x3105, 43), (0x3131, 94), (0x3192, 4), (0x31a0, 32), (0x31f0, 16),
      (0x3220, 10), (0x3248, 8), (0x3251, 15), (0x3280, 10), (0x32b1, 15), (0x3400, 6592),
      (0x4e00, 22157), (0xa4d0, 46), (0xa500, 269), (0xa610, 28), (0xa640, 47), (0xa674, 8),
      (0xa67f, 113), (0xa717, 9), (0xa722, 103), (0xa78b, 82), (0xa7f1, 21), (0xa807, 33),
      (0xa830, 6), (0xa840, 52), (0xa880, 68), (0xa8c5, 1), (0xa8d0, 10), (0xa8f2, 6), (0xa8fb, 1),
      (0xa8fd, 46), (0xa930, 35), (0xa960, 29), (0xa980, 51), (0xa9b4, 12), (0xa9cf, 11),
      (0xa9e0, 31), (0xaa00, 55), (0xaa40, 14), (0xaa50, 10), (0xaa60, 23), (0xaa7a, 69),
      (0xaac0, 1), (0xaac2, 1), (0xaadb, 3), (0xaae0, 16), (0xaaf2, 4), (0xab01, 6), (0xab09, 6),
      (0xab11, 6), (0xab20, 7), (0xab28, 7), (0xab30, 43), (0xab5c, 14), (0xab70, 123),
      (0xabf0, 10), (0xac00, 11172), (0xd7b0, 23), (0xd7cb, 49), (0xf900, 366), (0xfa70, 106),
      (0xfb00, 7), (0xfb13, 5), (0xfb1d, 12), (0xfb2a, 13), (0xfb38, 5), (0xfb3e, 1), (0xfb40, 2),
      (0xfb43, 2), (0xfb46, 108), (0xfbd3, 363), (0xfd50, 64), (0xfd92, 54), (0xfdf0, 12),
      (0xfe70, 5), (0xfe76, 135), (0xff10, 10), (0xff21, 26), (0xff41, 26), (0xff66, 89),
      (0xffc2, 6), (0xffca, 6), (0xffd2, 6), (0xffda, 3), (0x10000, 12), (0x1000d, 26),
      (0x10028, 19), (0x1003c, 2), (0x1003f, 15), (0x10050, 14), (0x10080, 123), (0x10107, 45),
      (0x10140, 57), (0x1018a, 2), (0x10280, 29), (0x102a0, 49), (0x102e1, 27), (0x10300, 36),
      (0x1032d, 30), (0x10350, 43), (0x10380, 30), (0x103a0, 36), (0x103c8, 8), (0x103d1, 5),
      (0x10400, 158), (0x104a0, 10), (0x104b0, 36), (0x104d8, 36), (0x10500, 40), (0x10530, 52),
      (0x10570, 11), (0x1057c, 15), (0x1058c, 7), (0x10594, 2), (0x10597, 11), (0x105a3, 15),
      (0x105b3, 7), (0x105bb, 2), (0x105c0, 52), (0x10600, 311), (0x10740, 22), (0x10760, 8),
      (0x10780, 6), (0x10787, 42), (0x107b2, 9), (0x10800, 6), (0x10808, 1), (0x1080a, 44),
      (0x10837, 2), (0x1083c, 1), (0x1083f, 23), (0x10858, 31), (0x10879, 38), (0x108a7, 9),
      (0x108e0, 19), (0x108f4, 2), (0x108fb, 33), (0x10920, 26), (0x10940, 26), (0x10980, 56),
      (0x109bc, 20), (0x109d2, 50), (0x10a05, 2), (0x10a0c, 8), (0x10a15, 3), (0x10a19, 29),
      (0x10a40, 9), (0x10a60, 31), (0x10a80, 32), (0x10ac0, 8), (0x10ac9, 28), (0x10aeb, 5),
      (0x10b00, 54), (0x10b40, 22), (0x10b58, 27), (0x10b78, 26), (0x10ba9, 7), (0x10c00, 73),
      (0x10c80, 51), (0x10cc0, 51), (0x10cfa, 46), (0x10d30, 10), (0x10d40, 38), (0x10d69, 1),
      (0x10d6f, 23), (0x10e60, 31), (0x10e80, 42), (0x10eab, 2), (0x10eb0, 2), (0x10ec2, 6),
      (0x10efa, 3), (0x10f00, 40), (0x10f30, 22), (0x10f51, 4), (0x10f70, 18), (0x10fb0, 28),
      (0x10fe0, 23), (0x11000, 70), (0x11052, 30), (0x11071, 5), (0x11080, 57), (0x110c2, 1),
      (0x110d0, 25), (0x110f0, 10), (0x11100, 51), (0x11136, 10), (0x11144, 4), (0x11150, 35),
      (0x11176, 1), (0x11180, 64), (0x111c1, 4), (0x111ce, 13), (0x111dc, 1), (0x111e1, 20),
      (0x11200, 18), (0x11213, 34), (0x11237, 1), (0x1123e, 4), (0x11280, 7), (0x11288, 1),
      (0x1128a, 4), (0x1128f, 15), (0x1129f, 10), (0x112b0, 57), (0x112f0, 10), (0x11300, 4),
      (0x11305, 8), (0x1130f, 2), (0x11313, 22), (0x1132a, 7), (0x11332, 2), (0x11335, 5),
      (0x1133d, 8), (0x11347, 2), (0x1134b, 2), (0x11350, 1), (0x11357, 1), (0x1135d, 7),
      (0x11380, 10), (0x1138b, 1), (0x1138e, 1), (0x11390, 38), (0x113b7, 10), (0x113c2, 1),
      (0x113c5, 1), (0x113c7, 4), (0x113cc, 2), (0x113d1, 1), (0x113d3, 1), (0x11400, 66),
      (0x11443, 3), (0x11447, 4), (0x11450, 10), (0x1145f, 3), (0x11480, 66), (0x114c4, 2),
      (0x114c7, 1), (0x114d0, 10), (0x11580, 54), (0x115b8, 7), (0x115d8, 6), (0x11600, 63),
      (0x11640, 1), (0x11644, 1), (0x11650, 10), (0x11680, 54), (0x116b8, 1), (0x116c0, 10),
      (0x116d0, 20), (0x11700, 27), (0x1171d, 14), (0x11730, 12), (0x11740, 7), (0x11800, 57),
      (0x118a0, 83), (0x118ff, 8), (0x11909, 1), (0x1190c, 8), (0x11915, 2), (0x11918, 30),
      (0x11937, 2), (0x1193b, 2), (0x1193f, 4), (0x11950, 10), (0x119a0, 8), (0x119aa, 46),
      (0x119da, 6), (0x119e1, 1), (0x119e3, 2), (0x11a00, 51), (0x11a35, 10), (0x11a50, 72),
      (0x11a9d, 1), (0x11ab0, 73), (0x11b60, 8), (0x11bc0, 33), (0x11bf0, 10), (0x11c00, 9),
      (0x11c0a, 45), (0x11c38, 7), (0x11c40, 1), (0x11c50, 29), (0x11c72, 30), (0x11c92, 22),
      (0x11ca9, 14), (0x11d00, 7), (0x11d08, 2), (0x11d0b, 44), (0x11d3a, 1), (0x11d3c, 2),
      (0x11d3f, 3), (0x11d43, 1), (0x11d46, 2), (0x11d50, 10), (0x11d60, 6), (0x11d67, 2),
      (0x11d6a, 37), (0x11d90, 2), (0x11d93, 4), (0x11d98, 1), (0x11da0, 10), (0x11db0, 44),
      (0x11de0, 10), (0x11ee0, 23), (0x11f00, 17), (0x11f12, 41), (0x11f3e, 3), (0x11f50, 10),
      (0x11fb0, 1), (0x11fc0, 21), (0x12000, 922), (0x12400, 111), (0x12480, 196), (0x12f90, 97),
      (0x13000, 1072), (0x13441, 6), (0x13460, 3995), (0x14400, 583), (0x16100, 47), (0x16130, 10),
      (0x16800, 569), (0x16a40, 31), (0x16a60, 10), (0x16a70, 79), (0x16ac0, 10), (0x16ad0, 30),
      (0x16b00, 48), (0x16b40, 4), (0x16b50, 10), (0x16b5b, 7), (0x16b63, 21), (0x16b7d, 19),
      (0x16d40, 45), (0x16d70, 10), (0x16e40, 87), (0x16ea0, 25), (0x16ebb, 25), (0x16f00, 75),
      (0x16f4f, 57), (0x16f8f, 17), (0x16fe0, 2), (0x16fe3, 1), (0x16ff0, 7), (0x17000, 7382),
      (0x18cff, 32), (0x18d80, 115), (0x1aff0, 4), (0x1aff5, 7), (0x1affd, 2), (0x1b000, 291),
      (0x1b132, 1), (0x1b150, 3), (0x1b155, 1), (0x1b164, 4), (0x1b170, 396), (0x1bc00, 107),
      (0x1bc70, 13), (0x1bc80, 9), (0x1bc90, 10), (0x1bc9e, 1), (0x1ccf0, 10), (0x1d2c0, 20),
      (0x1d2e0, 20), (0x1d360, 25), (0x1d400, 85), (0x1d456, 71), (0x1d49e, 2), (0x1d4a2, 1),
      (0x1d4a5, 2), (0x1d4a9, 4), (0x1d4ae, 12), (0x1d4bb, 1), (0x1d4bd, 7), (0x1d4c5, 65),
      (0x1d507, 4), (0x1d50d, 8), (0x1d516, 7), (0x1d51e, 28), (0x1d53b, 4), (0x1d540, 5),
      (0x1d546, 1), (0x1d54a, 7), (0x1d552, 340), (0x1d6a8, 25), (0x1d6c2, 25), (0x1d6dc, 31),
      (0x1d6fc, 25), (0x1d716, 31), (0x1d736, 25), (0x1d750, 31), (0x1d770, 25), (0x1d78a, 31),
      (0x1d7aa, 25), (0x1d7c4, 8), (0x1d7ce, 50), (0x1df00, 31), (0x1df25, 6), (0x1e000, 7),
      (0x1e008, 17), (0x1e01b, 7), (0x1e023, 2), (0x1e026, 5), (0x1e030, 62), (0x1e08f, 1),
      (0x1e100, 45), (0x1e137, 7), (0x1e140, 10), (0x1e14e, 1), (0x1e290, 30), (0x1e2c0, 44),
      (0x1e2f0, 10), (0x1e4d0, 28), (0x1e4f0, 10), (0x1e5d0, 30), (0x1e5f0, 11), (0x1e6c0, 31),
      (0x1e6e0, 22), (0x1e6fe, 2), (0x1e7e0, 7), (0x1e7e8, 4), (0x1e7ed, 2), (0x1e7f0, 15),
      (0x1e800, 197), (0x1e8c7, 9), (0x1e900, 68), (0x1e947, 1), (0x1e94b, 1), (0x1e950, 10),
      (0x1ec71, 59), (0x1ecad, 3), (0x1ecb1, 4), (0x1ed01, 45), (0x1ed2f, 15), (0x1ee00, 4),
      (0x1ee05, 27), (0x1ee21, 2), (0x1ee24, 1), (0x1ee27, 1), (0x1ee29, 10), (0x1ee34, 4),
      (0x1ee39, 1), (0x1ee3b, 1), (0x1ee42, 1), (0x1ee47, 1), (0x1ee49, 1), (0x1ee4b, 1),
      (0x1ee4d, 3), (0x1ee51, 2), (0x1ee54, 1), (0x1ee57, 1), (0x1ee59, 1), (0x1ee5b, 1),
      (0x1ee5d, 1), (0x1ee5f, 1), (0x1ee61, 2), (0x1ee64, 1), (0x1ee67, 4), (0x1ee6c, 7),
      (0x1ee74, 4), (0x1ee79, 4), (0x1ee7e, 1), (0x1ee80, 10), (0x1ee8b, 17), (0x1eea1, 3),
      (0x1eea5, 5), (0x1eeab, 17), (0x1f100, 13), (0x1f130, 26), (0x1f150, 26), (0x1f170, 26),
      (0x1fbf0, 10), (0x20000, 42720), (0x2a700, 4382), (0x2b820, 5774), (0x2ceb0, 7473),
      (0x2ebf0, 622), (0x2f800, 542), (0x30000, 4939), (0x31350, 8490)]

/-- Whether a character is a letter or a digit. -/
def isAlphanumeric (c : Char) : Bool := inRuns alphanumericRuns c

end UnionChecker.Text
