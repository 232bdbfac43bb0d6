/-!
# Scanning a text

A scanner takes something from the front of a text, or halts at a place. A halt is *final* when the
text cannot be read in any other way; otherwise another scanner may be tried where the first one
started. The place of a halt that nobody takes up is where the error is reported, so every
combination of scanners says which halt it passes on.
-/

namespace UnionChecker.Toml

/-- Where and how a scanner halts. -/
structure Halt where
  /-- Whether no other reading is tried. -/
  final : Bool
  /-- The number of characters from the place of the halt to the end of the text. -/
  left : Nat
deriving DecidableEq, Repr

/-- A scanner: what it takes from a text, and the text behind it. -/
abbrev Scan := StateT (List Char) (Except Halt)

namespace Scan

/-! ## Single characters -/

/-- Halt here. -/
def stop {α : Type} : Scan α := fun cs => .error ⟨false, cs.length⟩

/-- The number of characters to the end of the text. -/
def here : Scan Nat := fun cs => .ok (cs.length, cs)

/-- The next character, which stays where it is. -/
def next? : Scan (Option Char) := fun cs => .ok (cs.head?, cs)

/-- A character of a class. -/
def one (p : Char → Bool) : Scan Char
  | c :: cs => if p c then .ok (c, cs) else .error ⟨false, (c :: cs).length⟩
  | [] => .error ⟨false, 0⟩

/-- A given character. -/
def char (c : Char) : Scan Unit := do
  let _ ← one (· == c)

/-- A given text. -/
def literal (text : String) : Scan Unit := fun cs =>
  if text.toList.isPrefixOf cs then .ok ((), cs.drop text.length) else .error ⟨false, cs.length⟩

/-- As many characters of a class as there are. -/
def all (p : Char → Bool) : Scan (List Char) := fun cs => .ok (cs.takeWhile p, cs.dropWhile p)

/-- As many characters of a class as there are, at least one. -/
def atLeastOne (p : Char → Bool) : Scan (List Char) := do
  let c ← one p
  return c :: (← all p)

/-- The end of the text. -/
def finish : Scan Unit := fun cs => if cs.isEmpty then .ok ((), cs) else .error ⟨false, cs.length⟩

/-! ## Combinations -/

/-- A scanner whose halts are final. -/
def commit {α : Type} (scan : Scan α) : Scan α := fun cs =>
  (scan cs).mapError fun halt => { halt with final := true }

/-- The first scanner, or where it halts and another reading may be tried, the second. -/
def either {α : Type} (first second : Scan α) : Scan α := fun cs =>
  match first cs with
  | .error halt => if halt.final then .error halt else second cs
  | found => found

/-- A scanner that may also take nothing. -/
def maybe {α : Type} (scan : Scan α) : Scan (Option α) :=
  either (do return some (← scan)) (return none)

/-- A scanner that takes nothing, even when it halts. -/
def ahead {α : Type} (scan : Scan α) : Scan Unit := fun cs =>
  match scan cs with
  | .ok _ => .ok ((), cs)
  | .error halt => .error { halt with left := cs.length }

/-- A scanner whose result has to pass a test. Where it does not, the scanner halts at its
start. -/
def checked {α β : Type} (test : α → Option β) (scan : Scan α) : Scan β := fun cs =>
  match scan cs with
  | .error halt => .error halt
  | .ok (found, rest) =>
    match test found with
    | none => .error ⟨false, cs.length⟩
    | some result => .ok (result, rest)

/-- A scanner as often as it succeeds, at most `bound` times. -/
def manyWithin {α : Type} (scan : Scan α) : (bound : Nat) → Scan (List α)
  | 0 => return []
  | bound + 1 => do
    match ← maybe scan with
    | none => return []
    | some found => return found :: (← manyWithin scan bound)

/-- A scanner as often as it succeeds. It has to take something each time, so there is no more than
one success for each character. -/
def many {α : Type} (scan : Scan α) : Scan (List α) := fun cs =>
  manyWithin scan (cs.length + 1) cs

/-- Items with a separator between them, at least one. A separator without an item behind it is left
where it is. -/
def separated {α : Type} (item : Scan α) (separator : Char) : Scan (List α) := do
  let first ← item
  return first :: (← many (do char separator; item))

/-- Items with a separator between them, possibly none. -/
def separatedOrNone {α : Type} (item : Scan α) (separator : Char) : Scan (List α) := do
  return (← maybe (separated item separator)).getD []

end Scan

/-! ## Blanks, comments and lines -/

open Scan

/-- A blank inside a line. -/
def isBlank (c : Char) : Bool := c == ' ' || c == '\t'

/-- A character that may stand in quotes or in a comment: no control character but the tab. -/
def isPlain (c : Char) : Bool := c == '\t' || (0x20 ≤ c.toNat && c.toNat != 0x7f)

/-- Blanks, possibly none. -/
def blanks : Scan Unit := do
  let _ ← all isBlank

/-- A newline, with a carriage return before it or not. -/
def newline : Scan Unit := either (char '\n') (do char '\r'; char '\n')

/-- A comment up to the end of its line. -/
def comment : Scan Unit := do
  char '#'
  let _ ← all isPlain

/-- A newline, or the end of the text. -/
def lineEnd : Scan Unit := either newline finish

/-- What may stand behind the content of a line. -/
def restOfLine : Scan Unit := do
  blanks
  let _ ← maybe comment
  lineEnd

/-- One more line, from its first blank to its newline, if nothing but a comment is on it. None when
something else follows the blanks. -/
def emptyLine? : Scan (Option Unit) := do
  blanks
  match ← next? with
  | some '#' => do comment; newline; return some ()
  | some '\n' => do newline; return some ()
  | some '\r' => do newline; return some ()
  | _ => return none

/-- Blanks, comments and newlines, over at most `bound` lines. -/
def fillerWithin : (bound : Nat) → Scan Unit
  | 0 => return ()
  | bound + 1 => do
    match ← emptyLine? with
    | none => return ()
    | some () => fillerWithin bound

/-- Blanks, comments and newlines between the items of an array. A comment needs a newline. -/
def filler : Scan Unit := fun cs => fillerWithin (cs.length + 1) cs

end UnionChecker.Toml
