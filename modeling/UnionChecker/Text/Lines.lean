/-!
# Lines and columns of text

Texts are cut into lines at newlines. The newline belongs to no line, and a text that ends with one
has an empty line at the end.
-/

namespace UnionChecker.Text

/-- The lines of a text. There is always at least one. -/
def splitLines : List Char → List (List Char)
  | [] => [[]]
  | c :: cs =>
    if c == '\n' then [] :: splitLines cs
    else
      match splitLines cs with
      | [] => [[c]]
      | line :: lines => (c :: line) :: lines

/-- The indices of a first line and of the one behind the last lie within a text. -/
def InRange (lines : List (List Char)) (first stop : Nat) : Prop :=
  first ≤ stop ∧ stop ≤ lines.length

/-- The lines from an index up to another, without the last, in a text that has both. -/
def slice (lines : List (List Char)) (first stop : Nat) (_ : InRange lines first stop) :
    List (List Char) :=
  (lines.take stop).drop first

/-- The number of bytes of characters. -/
def byteCount : List Char → Nat
  | [] => 0
  | c :: cs => c.utf8Size + byteCount cs

/-- A line without the carriage return at its end. -/
def dropReturn (line : List Char) : List Char :=
  if line.getLast? == some '\r' then line.dropLast else line

/-- Lines as paragraphs: a carriage return before a newline belongs to the newline, and an empty
line at the end does not count. -/
def paragraphs : List (List Char) → List (List Char)
  | [] => []
  | [last] => if last.isEmpty then [] else [last]
  | line :: lines => dropReturn line :: paragraphs lines

/-- A number in decimal digits. -/
def decimal (n : Nat) : List Char := Nat.toDigits 10 n

/-- How many decimal digits a number has. -/
def digitCount (n : Nat) : Nat := (decimal n).length

/-- `n` spaces. -/
def spaces (n : Nat) : List Char := List.replicate n ' '

/-- A text with spaces behind it, up to a width. -/
def padRight (width : Nat) (text : List Char) : List Char :=
  text ++ spaces (width - text.length)

/-- A text with spaces in front of it, up to a width. -/
def padLeft (width : Nat) (text : List Char) : List Char :=
  spaces (width - text.length) ++ text

/-- Lines joined by newlines. -/
def joinLines : List (List Char) → List Char
  | [] => []
  | [line] => line
  | line :: lines => line ++ '\n' :: joinLines lines

end UnionChecker.Text
