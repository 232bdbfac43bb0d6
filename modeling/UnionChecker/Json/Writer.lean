import UnionChecker.Json.Value
/-!
# Writing JSON

Values are written on one line, or over several lines with an indentation of two spaces. Doubles
are written with seventeen digits.
-/

namespace UnionChecker.Json

/-- A lowercase hexadecimal digit. -/
def hexDigit (n : Nat) : Char :=
  if n < 10 then Char.ofNat ('0'.toNat + n) else Char.ofNat ('a'.toNat + (n - 10))

/-- A character of a text, escaped when it cannot stand for itself. -/
def escapeChar (c : Char) : String :=
  match c with
  | '"' => "\\\""
  | '\\' => "\\\\"
  | '\n' => "\\n"
  | '\r' => "\\r"
  | '\t' => "\\t"
  | '\x08' => "\\b"
  | '\x0c' => "\\f"
  | c =>
    if c.toNat < 0x20 then
      "\\u00" ++ String.ofList [hexDigit (c.toNat / 16), hexDigit (c.toNat % 16)]
    else c.toString

/-- A text between quotes. -/
def quote (s : String) : String := "\"" ++ String.join (s.toList.map escapeChar) ++ "\""

/-- A finite double: its digits and a power of ten. -/
def digits (x : Binary64) : String :=
  let (negative, n, exponent) := x.decimal
  (if negative then "-" else "") ++ toString n ++ "e" ++ toString exponent

mutual

/-- A value on one line. -/
def render : Json → String
  | .null => "null"
  | .bool b => if b then "true" else "false"
  | .int n => toString n
  | .float x => digits x
  | .str s => quote s
  | .arr items => "[" ++ ",".intercalate (renderItems items) ++ "]"
  | .obj members => "\x7b" ++ ",".intercalate (renderMembers members) ++ "\x7d"
  | .meaningless => "null"

/-- The items of an array, each on one line. -/
def renderItems : List Json → List String
  | [] => []
  | j :: js => render j :: renderItems js

/-- The members of an object, each on one line. -/
def renderMembers : List (String × Json) → List String
  | [] => []
  | (key, j) :: ms => (quote key ++ ":" ++ render j) :: renderMembers ms

end

/-- Lines between brackets, indented by two spaces more than the brackets. -/
def bracketLines (opening closing indent : String) (lines : List String) : String :=
  match lines with
  | [] => opening ++ closing
  | lines =>
    opening ++ "\n" ++ ",\n".intercalate (lines.map (fun line => indent ++ "  " ++ line)) ++ "\n"
      ++ indent ++ closing

mutual

/-- A value over several lines, the first of them already indented. -/
def renderPretty (indent : String) : Json → String
  | .arr items => bracketLines "[" "]" indent (renderPrettyItems (indent ++ "  ") items)
  | .obj members =>
    bracketLines "\x7b" "\x7d" indent (renderPrettyMembers (indent ++ "  ") members)
  | j => render j

/-- The items of an array over several lines. -/
def renderPrettyItems (indent : String) : List Json → List String
  | [] => []
  | j :: js => renderPretty indent j :: renderPrettyItems indent js

/-- The members of an object over several lines. -/
def renderPrettyMembers (indent : String) : List (String × Json) → List String
  | [] => []
  | (key, j) :: ms => (quote key ++ ": " ++ renderPretty indent j) :: renderPrettyMembers indent ms

end

end UnionChecker.Json
