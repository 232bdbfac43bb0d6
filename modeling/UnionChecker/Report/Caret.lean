import UnionChecker.Failure
import UnionChecker.Text.Lines
/-!
# Excerpts with a caret

The line of an error with up to three lines before and two after, all numbered, and a caret under
the column of the error. Numbers are padded to the width of the last one, so all lines of the
excerpt start in the same column.
-/

namespace UnionChecker

open Text

/-- The lines around the line of an error. -/
structure Excerpt where
  /-- The number of the line, counted from one. -/
  number : Nat
  before : List (List Char)
  line : List Char
  after : List (List Char)
deriving DecidableEq, Repr

namespace Excerpt

/-- The excerpt around a line, if the text has it. -/
def around? (lines : List (List Char)) (number : Nat) : Option Excerpt :=
  let index := number - 1
  if h : index < lines.length then
    let before := slice lines (index - 3) index ⟨by omega, by omega⟩
    let after := slice lines (index + 1) (min (index + 3) lines.length) ⟨by omega, by omega⟩
    some ⟨number, before, lines[index], after⟩
  else none

/-- The width of the numbers. -/
def width (e : Excerpt) : Nat := digitCount (e.number + e.after.length)

/-- A line with its number. -/
def numbered (width number : Nat) (text : List Char) : List Char :=
  '|' :: ' ' :: padRight width (decimal number) ++ ' ' :: '|' :: ' ' :: text

/-- Lines with consecutive numbers. -/
def numberedFrom (width : Nat) : (first : Nat) → List (List Char) → List (List Char)
  | _, [] => []
  | first, line :: lines => numbered width first line :: numberedFrom width (first + 1) lines

/-- The caret in the given column of the line above, with a message. -/
def caretLine (width column : Nat) (message : List Char) : List Char :=
  spaces (column + width + 4) ++ '^' :: ' ' :: message

/-- The lines of the excerpt, with a caret under the line of the error. -/
def render (e : Excerpt) (column : Nat) (message : List Char) : List (List Char) :=
  numberedFrom e.width (e.number - e.before.length) e.before
    ++ numbered e.width e.number e.line
    :: caretLine e.width column message
    :: numberedFrom e.width (e.number + 1) e.after

end Excerpt

/-- An error in the text it is about. When the text has no such line there is only the message. -/
def Report.caret (r : Report) (source : String) : String :=
  let message := r.message.toList
  match Excerpt.around? (splitLines source.toList) (max r.span.line 1) with
  | none => String.ofList ('^' :: ' ' :: message)
  | some excerpt => String.ofList (joinLines (excerpt.render r.span.column message))

end UnionChecker
