import UnionChecker.Json.Value
/-!
# Reading JSON

The reader accepts the JSON grammar with nothing before or after the value but blanks. An integer is
read exactly when it fits in 64 bits; everything else is a double. What is well formed but out of
range, or nested deeper than a given number of levels, is read as a value without a meaning.
-/

namespace UnionChecker.Json.Reader

def isBlank (c : Char) : Bool := c == ' ' || c == '\n' || c == '\t' || c == '\r'

def skipBlanks (cs : List Char) : List Char := cs.dropWhile isBlank

/-! ## Texts -/

/-- The value of a hexadecimal digit. -/
def hexDigit? (c : Char) : Option Nat :=
  if '0' ≤ c ∧ c ≤ '9' then some (c.toNat - '0'.toNat)
  else if 'a' ≤ c ∧ c ≤ 'f' then some (c.toNat - 'a'.toNat + 10)
  else if 'A' ≤ c ∧ c ≤ 'F' then some (c.toNat - 'A'.toNat + 10)
  else none

/-- The value of four hexadecimal digits. -/
def hex4? (a b c d : Char) : Option Nat := do
  let a ← hexDigit? a
  let b ← hexDigit? b
  let c ← hexDigit? c
  let d ← hexDigit? d
  some (((a * 16 + b) * 16 + c) * 16 + d)

def isHighSurrogate (n : Nat) : Bool := 0xD800 ≤ n && n ≤ 0xDBFF
def isLowSurrogate (n : Nat) : Bool := 0xDC00 ≤ n && n ≤ 0xDFFF

/-- The character that a one-letter escape stands for. -/
def escaped? : Char → Option Char
  | '"' => some '"'
  | '\\' => some '\\'
  | '/' => some '/'
  | 'b' => some '\x08'
  | 'f' => some '\x0c'
  | 'n' => some '\n'
  | 'r' => some '\r'
  | 't' => some '\t'
  | _ => none

/-- Read a text up to its closing quote, given what has been read of it, last character first. A
text with half of a surrogate pair is well formed but has no value. -/
def text? : List Char → Option (List Char) → Option (Option String × List Char)
  | [], _ => none
  | '"' :: rest, read => some (read.map fun cs => String.ofList cs.reverse, rest)
  | '\\' :: 'u' :: a :: b :: c :: d :: '\\' :: 'u' :: e :: f :: g :: h :: rest, read => do
    let first ← hex4? a b c d
    let second ← hex4? e f g h
    if isHighSurrogate first && isLowSurrogate second then
      let c := Char.ofNat (0x10000 + (first - 0xD800) * 0x400 + (second - 0xDC00))
      text? rest (read.map (c :: ·))
    else if isHighSurrogate first || isLowSurrogate first then
      text? ('\\' :: 'u' :: e :: f :: g :: h :: rest) none
    else text? ('\\' :: 'u' :: e :: f :: g :: h :: rest) (read.map (Char.ofNat first :: ·))
  | '\\' :: 'u' :: a :: b :: c :: d :: rest, read => do
    let code ← hex4? a b c d
    if isHighSurrogate code || isLowSurrogate code then text? rest none
    else text? rest (read.map (Char.ofNat code :: ·))
  | '\\' :: c :: rest, read => do
    let c ← escaped? c
    text? rest (read.map (c :: ·))
  | c :: rest, read => if c.toNat < 0x20 then none else text? rest (read.map (c :: ·))

/-! ## Numbers -/

def digitValue (c : Char) : Nat := c.toNat - '0'.toNat

/-- A significand of 64 bits takes digits until the next one would overflow it. -/
def roomFor (significand digit : Nat) : Bool := significand * 10 + digit < limit64

/-- Take the digits before the point. Digits that no longer fit raise the exponent instead. -/
def wholePart : List Char → Nat → Nat × Nat
  | [], significand => (significand, 0)
  | c :: cs, significand =>
    if roomFor significand (digitValue c) then wholePart cs (significand * 10 + digitValue c)
    else (significand, cs.length + 1)

/-- Take the digits after the point, each lowering the exponent. Digits that no longer fit are
dropped. -/
def fractionPart : List Char → Nat → Int → Nat × Int
  | [], significand, exponent => (significand, exponent)
  | c :: cs, significand, exponent =>
    if roomFor significand (digitValue c) then
      fractionPart cs (significand * 10 + digitValue c) (exponent - 1)
    else (significand, exponent)

/-- The digits after a point. There is at least one. -/
def fraction? : List Char → Option (Option (List Char) × List Char)
  | '.' :: rest =>
    match rest.takeWhile Char.isDigit with
    | [] => none
    | digits => some (some digits, rest.dropWhile Char.isDigit)
  | cs => some (none, cs)

/-- The digits after an exponent mark, with their sign. There is at least one. -/
def exponentDigits? (negative : Bool) (cs : List Char) : Option (Option Int × List Char) :=
  match cs.takeWhile Char.isDigit with
  | [] => none
  | digits =>
    let n := digits.foldl (fun n c => n * 10 + digitValue c) 0
    some (some (if negative then -(n : Int) else n), cs.dropWhile Char.isDigit)

/-- The exponent of a number, if it has one. -/
def exponent? : List Char → Option (Option Int × List Char)
  | 'e' :: '+' :: rest | 'E' :: '+' :: rest => exponentDigits? false rest
  | 'e' :: '-' :: rest | 'E' :: '-' :: rest => exponentDigits? true rest
  | 'e' :: rest | 'E' :: rest => exponentDigits? false rest
  | cs => some (none, cs)

/-- The number with the given parts, if it is in range. Without fraction and exponent it is an
integer if it fits in 64 bits, signed when it is negative; minus zero is a double. -/
def numberOf? (negative : Bool) (whole : List Char) (fraction : Option (List Char))
    (exponent : Option Int) : Option Json :=
  let (significand, extra) := wholePart whole 0
  match fraction, exponent, extra with
  | none, none, 0 =>
    if !negative then some (.int significand)
    else if significand == 0 || !fitsInt64 (-(significand : Int)) then
      (Binary64.ofDecimal? true significand.toUInt64 0).map .float
    else some (.int (-(significand : Int)))
  | _, _, _ =>
    let (significand, shift) := fractionPart (fraction.getD []) significand extra
    (Binary64.ofDecimal? negative significand.toUInt64 (shift + exponent.getD 0)).map .float

/-- Read a number after its sign. A leading zero stands alone. -/
def unsigned? (negative : Bool) (cs : List Char) : Option (Json × List Char) := do
  let (whole, rest) ← (
    match cs with
    | '0' :: c :: rest => if c.isDigit then none else some (['0'], c :: rest)
    | _ =>
      match cs.takeWhile Char.isDigit with
      | [] => none
      | digits => some (digits, cs.dropWhile Char.isDigit))
  let (fraction, rest) ← fraction? rest
  let (exponent, rest) ← exponent? rest
  some ((numberOf? negative whole fraction exponent).getD .meaningless, rest)

/-! ## Values -/

/-- The value of a text that was read. -/
def textValue : Option String → Json
  | none => .meaningless
  | some s => .str s

/-- The object with the members that were read. All its keys have to be texts with a value. -/
def objectOf (members : List (Option String × Json)) : Json :=
  match members.mapM fun member => member.1.map (·, member.2) with
  | some members => .obj members
  | none => .meaningless

/-- An array or object, unless no more of them may be opened. -/
def within (levels : Nat) (found : Json) : Json := if levels == 0 then .meaningless else found

mutual

/-- Read a value. `levels` more arrays and objects may be opened; those that are deeper are read and
have no meaning. -/
def value? : (fuel levels : Nat) → List Char → Option (Json × List Char)
  | 0, _, _ => none
  | fuel + 1, levels, cs =>
    match skipBlanks cs with
    | 'n' :: 'u' :: 'l' :: 'l' :: rest => some (.null, rest)
    | 't' :: 'r' :: 'u' :: 'e' :: rest => some (.bool true, rest)
    | 'f' :: 'a' :: 'l' :: 's' :: 'e' :: rest => some (.bool false, rest)
    | '"' :: rest => (text? rest (some [])).map fun (s, rest) => (textValue s, rest)
    | '[' :: rest =>
      match skipBlanks rest with
      | ']' :: rest => some (within levels (.arr []), rest)
      | rest =>
        (items? fuel (levels - 1) rest).map fun (items, rest) => (within levels (.arr items), rest)
    | '\x7b' :: rest =>
      match skipBlanks rest with
      | '\x7d' :: rest => some (within levels (.obj []), rest)
      | rest =>
        (members? fuel (levels - 1) rest).map fun (members, rest) =>
          (within levels (objectOf members), rest)
    | '-' :: rest => unsigned? true rest
    | rest => unsigned? false rest

/-- Read the items of an array, at least one, and its closing bracket. -/
def items? : (fuel levels : Nat) → List Char → Option (List Json × List Char)
  | 0, _, _ => none
  | fuel + 1, levels, cs => do
    let (item, rest) ← value? fuel levels cs
    match skipBlanks rest with
    | ']' :: rest => some ([item], rest)
    | ',' :: rest =>
      let (items, rest) ← items? fuel levels rest
      some (item :: items, rest)
    | _ => none

/-- Read the members of an object, at least one, and its closing brace. -/
def members? :
    (fuel levels : Nat) → List Char → Option (List (Option String × Json) × List Char)
  | 0, _, _ => none
  | fuel + 1, levels, cs =>
    match skipBlanks cs with
    | '"' :: rest => do
      let (key, rest) ← text? rest (some [])
      match skipBlanks rest with
      | ':' :: rest =>
        let (item, rest) ← value? fuel levels rest
        match skipBlanks rest with
        | '\x7d' :: rest => some ([(key, item)], rest)
        | ',' :: rest =>
          let (members, rest) ← members? fuel levels rest
          some ((key, item) :: members, rest)
        | _ => none
      | _ => none
    | _ => none

end

end Reader

/-- Read a JSON text whose arrays and objects nest at most `levels` deep. Every step takes a
character, so twice their number bounds the steps. -/
def parseWithin? (levels : Nat) (text : String) : Option Json := do
  let cs := text.toList
  let (j, rest) ← Reader.value? (2 * cs.length + 2) levels cs
  if (Reader.skipBlanks rest).isEmpty then some j else none

/-- Read a JSON text. Arrays and objects nest at most 127 deep. -/
def parse? (text : String) : Option Json := parseWithin? 127 text

end UnionChecker.Json
