import UnionChecker.Text.Lines
/-!
# Places in a text

Spans count bytes of the UTF-8 form of a text. A place shows them as a line and a column, both
counted from one. Bytes past the end of the text belong to its last line.
-/

namespace UnionChecker

open Text (byteCount)

/-- A line of a text. -/
structure SourceLine where
  /-- The line, counted from one. -/
  number : Nat
  /-- The byte at which the line starts. -/
  start : Nat
  text : List Char
  /-- Whether a newline ends the line. -/
  ended : Bool
deriving DecidableEq, Repr

namespace SourceLine

/-- Lines with their numbers and starts. -/
def ofLines : (number start : Nat) → List (List Char) → List SourceLine
  | _, _, [] => []
  | number, start, [text] => [⟨number, start, text, false⟩]
  | number, start, text :: lines =>
    ⟨number, start, text, true⟩ :: ofLines (number + 1) (start + byteCount text + 1) lines

/-- The lines of a text. -/
def ofText (source : String) : List SourceLine := ofLines 1 0 (Text.splitLines source.toList)

/-- The line with a byte: the last one that starts at or before it. -/
def containing (lines : List SourceLine) (byte : Nat) : SourceLine :=
  ((lines.filter fun line => decide (line.start ≤ byte)).getLast?).getD ⟨1, 0, [], false⟩

/-- How many of the characters end at or before `limit`, the first one starting at `start`. -/
def charactersBefore : (start limit : Nat) → List Char → Nat
  | _, _, [] => 0
  | start, limit, c :: cs =>
    let stop := start + c.utf8Size
    (if stop ≤ limit then 1 else 0) + charactersBefore stop limit cs

/-- The column of a byte in its line. -/
def column (line : SourceLine) (byte : Nat) : Nat :=
  1 + charactersBefore line.start byte (line.text ++ if line.ended then ['\n'] else [])

end SourceLine

/-- A place in a text. -/
structure Place where
  line : Nat
  column : Nat
deriving DecidableEq, Repr

/-- The place of a byte. -/
def Place.ofByte (lines : List SourceLine) (byte : Nat) : Place :=
  let line := SourceLine.containing lines byte
  ⟨line.number, line.column byte⟩

end UnionChecker
