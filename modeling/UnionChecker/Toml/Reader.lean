import UnionChecker.Toml.Number
import UnionChecker.Toml.Table
/-!
# Reading TOML

A text is a series of lines with key-value pairs and headers. A header opens the table that the
pairs after it belong to. Keys have at most 79 names, and arrays and tables in braces nest at most
79 deep.
-/

namespace UnionChecker.Toml

open Scan

/-- How deep values nest, and how many names a key has, at most. -/
def maxLevels : Nat := 79

/-! ## Keys -/

/-- A character of a key without quotes. -/
def isKeyChar (c : Char) : Bool := c.isAlphanum || c == '_' || c == '-'

/-- One name of a key. -/
def simpleKey : Scan (List Char) :=
  either doubleQuoted (either singleQuoted (atLeastOne isKeyChar))

/-- One name of a key and the blanks around it. -/
def keyPart : Scan KeyPart := do
  blanks
  let place ← here
  let name ← simpleKey
  blanks
  return ⟨place, String.ofList name⟩

/-- A key: names with points between them. -/
def key : Scan (List KeyPart) :=
  checked (fun parts => if parts.length ≤ maxLevels then some parts else none)
    (separated keyPart '.')

/-! ## Values -/

/-- A word that has to stand here. -/
def word (text : String) (value : Value) : Scan Value := do
  commit (literal text)
  return value

/-- An item of an array with its place, and the filler around it. -/
def arrayItem (item : Scan Value) : Scan (Nat × Value) := do
  filler
  let place ← here
  let value ← item
  filler
  return (place, value)

/-- The items of an array up to its closing bracket. A comma may stand behind the last one. -/
def arrayItems (item : Scan Value) : Scan (List (Nat × Value)) := do
  if (← next?) == some ']' then return []
  let items ← separatedOrNone (arrayItem item) ','
  if !items.isEmpty then
    let _ ← maybe (char ',')
  filler
  return items

/-- An array of items. -/
def array (item : Scan Value) : Scan Value := do
  char '['
  let items ← commit (arrayItems item)
  commit (char ']')
  return .array items

/-- A key, an equals sign and a value with its place. -/
def pair (value : Scan Value) : Scan (List KeyPart × Nat × Value) := do
  let parts ← key
  commit (do
    char '='
    blanks
    let place ← here
    return (parts, place, ← value))

/-- The pairs of a table in braces, up to the closing brace. -/
def inlinePairs (value : Scan Value) : Scan (List (List KeyPart × Nat × Value)) := do
  let pairs ← separatedOrNone (do
    let found ← pair value
    blanks
    return found) ','
  blanks
  return pairs

/-- The entries of a table in braces. None when they contradict each other. -/
def inlineEntries? (pairs : List (List KeyPart × Nat × Value)) : Option Entries :=
  pairs.foldlM (fun entries (parts, value) => addPair parts value .inline entries) []

/-- A table in braces. -/
def inlineTable (value : Scan Value) : Scan Value := do
  char '\x7b'
  let entries ← commit (checked inlineEntries? (inlinePairs value))
  commit (char '\x7d')
  return .table .inline entries

/-- A value, given the scanners of arrays and of tables in braces. -/
def valueWith (array inlineTable : Scan Value) : Scan Value := do
  match ← next? with
  | none => stop
  | some c =>
    if c == '"' || c == '\'' then return .string (← string)
    else if c == '[' then array
    else if c == '\x7b' then inlineTable
    else if c == '+' || c == '-' || c.isDigit then number
    else if c == 't' then word "true" (.boolean true)
    else if c == 'f' then word "false" (.boolean false)
    else if c == 'i' then infinity
    else if c == 'n' then notANumber
    else stop

/-- A value with arrays and tables in braces that nest at most `levels` deep. -/
def value : (levels : Nat) → Scan Value
  | 0 => valueWith (commit stop) (commit stop)
  | levels + 1 => valueWith (array (value levels)) (inlineTable (value levels))

/-! ## Texts -/

/-- What has been read of a text: its entries, and the key of the last header. -/
structure Document where
  root : Entries
  header : List KeyPart

/-- The document before anything is read. -/
def Document.empty : Document := ⟨[], []⟩

/-- The document after a header for one table or, when it is doubled, for one of several. -/
def Document.open? (d : Document) (place : Nat) (doubled : Bool) (key : List KeyPart) :
    Option Document :=
  let root := if doubled then openElement place key d.root else openTable place key d.root
  root.map (⟨·, key⟩)

/-- The document after a key-value pair. -/
def Document.add? (d : Document) (key : List KeyPart) (value : Nat × Value) : Option Document :=
  (within false (addPair key value) d.header .header d.root).map (⟨·, d.header⟩)

/-- A header: whether it is doubled, and its key. -/
def header : Scan (Bool × List KeyPart) := do
  let doubled := (← maybe (literal "[[")).isSome
  if !doubled then char '['
  let parts ← key
  if doubled then literal "]]" else char ']'
  restOfLine
  return (doubled, parts)

/-- A key-value pair on a line. -/
def pairLine : Scan (List KeyPart × Nat × Value) := do
  let found ← pair (value maxLevels)
  restOfLine
  return found

/-- A header line. An opening bracket at the end of the text is none. -/
def headerLine (d : Document) : Scan Document := fun cs =>
  if cs.length ≤ 1 then .error ⟨false, cs.length⟩
  else checked (fun (doubled, parts) => d.open? cs.length doubled parts) header cs

/-- One line, from its first character that is not blank. -/
def line (d : Document) : Scan Document := do
  let start ← here
  match ← next? with
  | some '#' => comment; lineEnd; return d
  | some '[' => headerLine d
  | some '\n' => newline; return d
  | some '\r' =>
    match ← maybe newline with
    | some () => return d
    | none => throw ⟨true, start⟩
  | _ => checked (fun (parts, value) => d.add? parts value) pairLine

/-- Lines up to the end of the text, at most `bound` of them. -/
def linesWithin : (bound : Nat) → Document → Scan Document
  | 0, d => return d
  | bound + 1, d => do
    blanks
    match ← next? with
    | none => return d
    | some _ => linesWithin bound (← line d)

/-- Read a text, or tell where it is wrong. A byte order mark in front of it does not count. -/
def read (text : String) : Except Nat Entries :=
  let cs := text.toList
  let cs := if cs.head? == some '\ufeff' then cs.tail else cs
  match linesWithin (cs.length + 1) .empty cs with
  | .ok (d, _) => .ok d.root
  | .error halt => .error halt.left

/-! ## Places -/

/-- The line and column, counted from one, of the character with `left` characters from it to the
end. The end of the text is one column behind its last character. Columns count characters, but
bytes where the character itself has several. -/
def lineAndColumn (text : String) (left : Nat) : Nat × Nat :=
  let cs := text.toList
  let index := cs.length - left
  let safe := min index (cs.length - 1)
  let before := cs.take safe
  let lineStart := (before.reverse.takeWhile (· != '\n')).reverse
  let isLong := index == safe && ((cs[index]?).map Char.utf8Size).any (1 < ·)
  let column := if isLong then Text.byteCount lineStart else lineStart.length
  (before.count '\n' + 1, column + (index - safe) + 1)

end UnionChecker.Toml
