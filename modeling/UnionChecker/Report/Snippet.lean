import UnionChecker.Report.Diagnostic
import UnionChecker.Text.Width
/-!
# Snippets for the terminal

A diagnostic is shown with the lines that its labels are on. A label inside one line is underlined
with carets. A label over several lines has a bracket in the margin, from its first character to
behind its last one; of long ones only the first four and the last two lines are shown. Numbers
stand in a gutter, whose width is that of the greatest number.
-/

namespace UnionChecker

open Text

namespace Snippet

/-- The start of a line without a number. -/
def gutter (width : Nat) : List Char := spaces (width + 1)

/-- The start of a line under a source line. -/
def border (width : Nat) : List Char := gutter width ++ ['│']

/-- The text of a source line without what belongs to its end. -/
def shown (line : SourceLine) : List Char :=
  (line.text.reverse.dropWhile fun c => c == '\r' || c == '\x00').reverse

/-- The number of columns that a character takes in a given column. A tab goes to the next multiple
of four. -/
def columns (column : Nat) (c : Char) : Nat := if c == '\t' then 4 - column % 4 else width c

/-- Characters from a given column on, with spaces for tabs. -/
def expandTabs : (column : Nat) → List Char → List Char
  | _, [] => []
  | column, c :: cs =>
    (if c == '\t' then spaces (columns column c) else [c])
      ++ expandTabs (column + columns column c) cs

/-- A source line with its number. -/
def numbered (width : Nat) (line : SourceLine) (margin : List Char) : List Char :=
  padLeft width (decimal line.number) ++ ' ' :: '│' :: margin ++ ' ' :: expandTabs 0 (shown line)

/-- The mark of `count` columns under a source line, from byte `start` to byte `stop` of the line. A
column before the end of the label is filled with a blank, and nothing is written after it. -/
def mark (caret : Char) (first last start stop count : Nat) : List Char :=
  if max first start < min last stop then List.replicate count caret
  else if start < last then spaces count
  else []

/-- The carets under the bytes from `first` to `last` of a line, from a given column and byte on.
There is one column behind the characters, for labels at the end of the line. -/
def carets (caret : Char) (first last : Nat) : (column start : Nat) → List Char → List Char
  | _, start, [] => mark caret first last start (start + 1) 1
  | column, start, c :: cs =>
    mark caret first last start (start + c.utf8Size) (columns column c)
      ++ carets caret first last (column + columns column c) (start + c.utf8Size) cs

/-- A message behind carets. -/
def trailing (message : String) : List Char :=
  if message.isEmpty then [] else ' ' :: message.toList

/-- The character that underlines a label. -/
def caretOf : LabelStyle → Char
  | .primary => '^'
  | .secondary => '-'

/-- The character at the ends of a label over several lines. -/
def bracketEnd : LabelStyle → Char
  | .primary => '^'
  | .secondary => '\''

/-- The lines of a label inside one line. An empty label gets one caret. -/
def inside (width : Nat) (label : Label) (line : SourceLine) : List (List Char) :=
  let first := label.start - line.start
  let last := max (label.stop - line.start) (first + 1)
  [numbered width line [],
    border width ++ ' ' :: carets (caretOf label.style) first last 0 0 (shown line)
      ++ trailing label.message]

/-- The number of columns of the characters that start before byte `limit`, from a given column and
byte on. -/
def columnsBefore (limit : Nat) : (column start : Nat) → List Char → Nat
  | _, _, [] => 0
  | column, start, c :: cs =>
    if start < limit then
      columns column c + columnsBefore limit (column + columns column c) (start + c.utf8Size) cs
    else 0

/-- The first lines of a label over several lines. When only blanks precede the label, the bracket
opens beside the line. -/
def opening (width : Nat) (label : Label) (line : SourceLine) : List (List Char) :=
  let first := label.start - line.start
  if first ≤ byteCount ((shown line).takeWhile Char.isWhitespace) then
    [numbered width line [' ', '╭']]
  else
    [numbered width line [' ', ' '],
      border width ++ ' ' :: '╭'
        :: List.replicate (columnsBefore (first + 1) 0 0 (shown line)) '─'
        ++ [bracketEnd label.style]]

/-- The last lines of a label over several lines. -/
def closing (width : Nat) (label : Label) (line : SourceLine) : List (List Char) :=
  [numbered width line [' ', '│'],
    border width ++ ' ' :: '╰'
      :: List.replicate (columnsBefore (label.stop - line.start) 0 0 (shown line)) '─'
      ++ bracketEnd label.style :: trailing label.message]

/-- The lines between the ends of a label. Of more than five, the first three and the last one are
shown, and a break between them. -/
def between (width : Nat) (lines : List SourceLine) : List (List Char) :=
  let beside (ls : List SourceLine) := ls.map fun line => numbered width line [' ', '│']
  if lines.length ≤ 5 then beside lines
  else
    beside (lines.take 3) ++ [gutter width ++ ['·', ' ', '│']]
      ++ beside (lines.drop (lines.length - 1))

/-- The lines of a label over several lines. -/
def across (width : Nat) (label : Label) (lines : List SourceLine) (first last : SourceLine) :
    List (List Char) :=
  let inner := lines.filter fun line => first.number < line.number && line.number < last.number
  opening width label first ++ between width inner ++ closing width label last

/-- The snippet of a label: where it is, and the lines it is on. -/
def ofLabel (width : Nat) (name : String) (lines : List SourceLine) (label : Label) :
    List (List Char) :=
  let first := SourceLine.containing lines label.start
  let last := SourceLine.containing lines label.stop
  let head := gutter width ++ '┌' :: '─' :: ' ' :: name.toList ++ ':' :: decimal first.number
    ++ ':' :: decimal (first.column label.start)
  if first.number == last.number then
    head :: border width :: inside width label first
  else
    head :: (border width ++ [' ', ' ']) :: across width label lines first last

/-- The lines of a note. Lines after the first are indented like the first. -/
def note (width : Nat) (text : String) : List (List Char) :=
  (paragraphs (splitLines text.toList)).zipIdx.map fun (line, i) =>
    gutter width ++ (if i == 0 then '=' else ' ') :: ' ' :: line

end Snippet

namespace Diagnostic

/-- The first line: severity, code and message. -/
def header (d : Diagnostic) : List Char :=
  let code := match d.code with
    | none => ""
    | some code => "[" ++ code ++ "]"
  (d.severity.label ++ code ++ ": " ++ d.message).toList

/-- Whether a label is on several lines of a text. -/
def isAcross (lines : List SourceLine) (label : Label) : Bool :=
  (SourceLine.containing lines label.start).number
    != (SourceLine.containing lines label.stop).number

/-- The text of a diagnostic about the only file, number zero, with an empty line at the end. -/
def render (name source : String) (d : Diagnostic) : String :=
  let lines := SourceLine.ofText source
  let labels := d.labels.filter fun l => l.file == 0
  let width := labels.foldl (fun width label =>
    max width (digitCount (SourceLine.containing lines label.stop).number)) 0
  let snippets := labels.flatMap (Snippet.ofLabel width name lines)
  let separator :=
    if labels.isEmpty || d.notes.isEmpty then []
    else if labels.any (isAcross lines) then [Snippet.border width ++ [' ', ' ']]
    else [Snippet.border width]
  let notes := d.notes.flatMap (Snippet.note width)
  String.ofList (((d.header :: snippets ++ separator ++ notes ++ [[]]).map (· ++ ['\n'])).flatten)

end Diagnostic

end UnionChecker
