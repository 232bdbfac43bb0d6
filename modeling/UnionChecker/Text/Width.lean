import UnionChecker.Text.Combining
/-!
# The width of characters

In a terminal most characters take one column, those of East Asian scripts and pictures two, and
those that combine or are never displayed none.
-/

namespace UnionChecker.Text

/-- The runs of characters that are not displayed, in order: the Unicode property
`Default_Ignorable_Code_Point`. -/
def ignorableRuns : List Run :=
  spans
    [(0xad, 1), (0x34f, 1), (0x61c, 1), (0x115f, 2), (0x17b4, 2), (0x180b, 5), (0x200b, 5),
      (0x202a, 5), (0x2060, 16), (0x3164, 1), (0xfe00, 16), (0xfeff, 1), (0xffa0, 1), (0xfff0, 9),
      (0x1bca0, 4), (0x1d173, 8), (0xe0000, 4096)]

/-- Whether a character is not displayed. -/
def isIgnorable (c : Char) : Bool := inRuns ignorableRuns c

/-- Further characters without a width, in order: vowels and final consonants of Hangul, which join
the consonant before them, and marks that enclose what follows them. -/
def joiningRuns : List Run :=
  spans
    [(0x605, 1), (0x70f, 1), (0x890, 2), (0x8e2, 1), (0x1160, 160), (0xa8fa, 1), (0xd7b0, 23),
      (0xd7cb, 49)]

/-- The runs of characters that take two columns, in order: the East Asian widths `W` and `F`. -/
def wideRuns : List Run :=
  spans
    [(0x1100, 96), (0x231a, 2), (0x2329, 2), (0x23e9, 4), (0x23f0, 1), (0x23f3, 1), (0x25fd, 2),
      (0x2614, 2), (0x2630, 8), (0x2648, 12), (0x267f, 1), (0x268a, 6), (0x2693, 1), (0x26a1, 1),
      (0x26aa, 2), (0x26bd, 2), (0x26c4, 2), (0x26ce, 1), (0x26d4, 1), (0x26ea, 1), (0x26f2, 2),
      (0x26f5, 1), (0x26fa, 1), (0x26fd, 1), (0x2705, 1), (0x270a, 2), (0x2728, 1), (0x274c, 1),
      (0x274e, 1), (0x2753, 3), (0x2757, 1), (0x2795, 3), (0x27b0, 1), (0x27bf, 1), (0x2b1b, 2),
      (0x2b50, 1), (0x2b55, 1), (0x2e80, 26), (0x2e9b, 89), (0x2f00, 214), (0x2ff0, 79),
      (0x3041, 86), (0x3099, 103), (0x3105, 43), (0x3131, 94), (0x3190, 86), (0x31ef, 48),
      (0x3220, 40), (0x3250, 29245), (0xa490, 55), (0xa960, 29), (0xac00, 11172), (0xf900, 512),
      (0xfe10, 10), (0xfe30, 35), (0xfe54, 19), (0xfe68, 4), (0xff01, 96), (0xffe0, 7),
      (0x16fe0, 5), (0x16ff0, 2), (0x17000, 6136), (0x18800, 1238), (0x18cff, 10), (0x1aff0, 4),
      (0x1aff5, 7), (0x1affd, 2), (0x1b000, 291), (0x1b132, 1), (0x1b150, 3), (0x1b155, 1),
      (0x1b164, 4), (0x1b170, 396), (0x1d300, 87), (0x1d360, 23), (0x1f004, 1), (0x1f0cf, 1),
      (0x1f18e, 1), (0x1f191, 10), (0x1f200, 3), (0x1f210, 44), (0x1f240, 9), (0x1f250, 2),
      (0x1f260, 6), (0x1f300, 33), (0x1f32d, 9), (0x1f337, 70), (0x1f37e, 22), (0x1f3a0, 43),
      (0x1f3cf, 5), (0x1f3e0, 17), (0x1f3f4, 1), (0x1f3f8, 71), (0x1f440, 1), (0x1f442, 187),
      (0x1f4ff, 63), (0x1f54b, 4), (0x1f550, 24), (0x1f57a, 1), (0x1f595, 2), (0x1f5a4, 1),
      (0x1f5fb, 85), (0x1f680, 70), (0x1f6cc, 1), (0x1f6d0, 3), (0x1f6d5, 3), (0x1f6dc, 4),
      (0x1f6eb, 2), (0x1f6f4, 9), (0x1f7e0, 12), (0x1f7f0, 1), (0x1f90c, 47), (0x1f93c, 10),
      (0x1f947, 185), (0x1fa70, 13), (0x1fa80, 10), (0x1fa8f, 56), (0x1face, 15), (0x1fadf, 11),
      (0x1faf0, 9), (0x20000, 65534), (0x30000, 65534)]

/-- The number of columns that a character takes. Control characters take none. -/
def width (c : Char) : Nat :=
  if c.toNat < 0x20 then 0
  else if c.toNat < 0x7f then 1
  else if c.toNat < 0xa0 then 0
  else if c.toNat == 0x115f then 2
  else if isIgnorable c || isCombining c || inRuns joiningRuns c then 0
  else if inRuns wideRuns c then 2
  else 1

end UnionChecker.Text
