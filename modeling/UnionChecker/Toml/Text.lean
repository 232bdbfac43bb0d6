import UnionChecker.Toml.Scan
/-!
# TOML strings

Strings in double quotes have escapes, those in single quotes none. Tripled quotes hold several
lines; a newline right after them does not count, and up to two quotes may stand before the closing
ones.
-/

namespace UnionChecker.Toml

open Scan

/-- A character that stands for itself between double quotes. -/
def isUnescaped (c : Char) : Bool := isPlain c && c != '"' && c != '\\'

/-- A character that stands for itself between single quotes. -/
def isVerbatim (c : Char) : Bool := isPlain c && c != '\''

/-! ## Escapes -/

/-- The value of a hexadecimal digit. -/
def hexValue? (c : Char) : Option Nat :=
  if '0' ≤ c ∧ c ≤ '9' then some (c.toNat - '0'.toNat)
  else if 'a' ≤ c ∧ c ≤ 'f' then some (c.toNat - 'a'.toNat + 10)
  else if 'A' ≤ c ∧ c ≤ 'F' then some (c.toNat - 'A'.toNat + 10)
  else none

/-- The number with hexadecimal digits. -/
def hexNumber? (cs : List Char) : Option Nat :=
  cs.foldlM (fun n c => (hexValue? c).map (n * 16 + ·)) 0

/-- The character with a code point. -/
def charOf? (code : Nat) : Option Char :=
  if h : code.isValidChar then some (Char.ofNatAux code h) else none

/-- The next `count` characters, or as many as there are. -/
def take (count : Nat) : Scan (List Char) := fun cs => .ok (cs.take count, cs.drop count)

/-- The character with a code point given by `count` hexadecimal digits. -/
def codePoint (count : Nat) : Scan Char :=
  checked (fun digits =>
    if digits.length == count then (hexNumber? digits).bind charOf? else none) (take count)

/-- The character that a letter after a backslash stands for. -/
def escaped? : Char → Option Char
  | 'b' => some '\x08'
  | 't' => some '\t'
  | 'n' => some '\n'
  | 'f' => some '\x0c'
  | 'r' => some '\r'
  | '"' => some '"'
  | '\\' => some '\\'
  | _ => none

/-- An escape that means nothing. The halt is behind a character of one byte and before a longer
one. -/
def unknownEscape (c : Char) : Scan Char := fun cs =>
  .error ⟨true, if c.utf8Size == 1 then cs.length else cs.length + 1⟩

/-- An escape, from its backslash on. -/
def escape : Scan Char := do
  char '\\'
  let c ← one fun _ => true
  match escaped? c with
  | some result => return result
  | none =>
    if c == 'u' then commit (codePoint 4)
    else if c == 'U' then commit (codePoint 8)
    else unknownEscape c

/-! ## Strings on one line -/

/-- Part of a string in double quotes. -/
def doublePart : Scan (List Char) :=
  either (atLeastOne isUnescaped) (do return [← escape])

/-- A string in double quotes. -/
def doubleQuoted : Scan (List Char) := do
  char '"'
  let parts ← many doublePart
  commit (char '"')
  return parts.flatten

/-- A string in single quotes. -/
def singleQuoted : Scan (List Char) := do
  char '\''
  let text ← all isVerbatim
  commit (char '\'')
  return text

/-! ## Strings over several lines -/

/-- A newline of a string, which counts as one character however it is written. -/
def newlinePart : Scan (List Char) := do
  newline
  return ['\n']

/-- Blanks and newlines, possibly none. -/
def blankLines : Scan Unit := do
  let _ ← many (either newline (do let _ ← atLeastOne isBlank))

/-- A backslash at the end of a line, with the blanks and newlines that it swallows. -/
def continuation : Scan (List Char) := do
  char '\\'
  blanks
  newline
  blankLines
  return []

/-- Part of a string in tripled double quotes. -/
def triplePart : Scan (List Char) :=
  either (atLeastOne isUnescaped)
    (either continuation (either (do return [← escape]) newlinePart))

/-- Part of a string in tripled single quotes. -/
def verbatimPart : Scan (List Char) := either (do return [← one isVerbatim]) newlinePart

/-- One or two quotes before something else. -/
def quotesBefore {α : Type} (quote : Char) (follower : Scan α) : Scan (List Char) :=
  either (do char quote; char quote; ahead follower; return [quote, quote])
    (do char quote; ahead follower; return [quote])

/-- Tripled quotes. -/
def tripled (quote : Char) : Scan Unit := literal (String.ofList [quote, quote, quote])

/-- One or two quotes before another character, with the parts of a string behind them. The first
of these parts is read by a scanner of its own. -/
def quotedParts (quote : Char) (firstPart part : Scan (List Char)) : Scan (List Char) := do
  let quotes ← quotesBefore quote (one (· != quote))
  let first ← firstPart
  let more ← many part
  return quotes ++ first ++ more.flatten

/-- A string in tripled quotes, made of parts. The first part after one or two quotes is read by a
scanner of its own. -/
def tripleQuoted (quote : Char) (firstPart part : Scan (List Char)) : Scan (List Char) := do
  tripled quote
  let _ ← maybe newline
  let body ← commit (do
    let first ← many part
    let more ← many (quotedParts quote firstPart part)
    let last ← maybe (quotesBefore quote (tripled quote))
    return first.flatten ++ more.flatten ++ last.getD [])
  commit (tripled quote)
  return body

/-- A string in tripled double quotes. A character that does not fit after one or two quotes is
wrong at its own place. -/
def tripleDoubleQuoted : Scan (List Char) :=
  tripleQuoted '"' (commit (either triplePart stop)) triplePart

/-- A string in tripled single quotes. When a character does not fit after one or two quotes, the
closing quotes are missing where those quotes start. -/
def tripleSingleQuoted : Scan (List Char) := tripleQuoted '\'' verbatimPart verbatimPart

/-- A string of any kind. -/
def string : Scan String := do
  let text ← either tripleDoubleQuoted
    (either doubleQuoted (either tripleSingleQuoted singleQuoted))
  return String.ofList text

end UnionChecker.Toml
