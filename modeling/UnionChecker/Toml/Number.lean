import UnionChecker.Basic
import UnionChecker.Text.Lines
import UnionChecker.Toml.Text
import UnionChecker.Toml.Value
/-!
# TOML numbers and dates

Integers have 64 bits. Underscores may stand between digits. A number that starts like a date or a
time is one, and then has to be a proper one.
-/

namespace UnionChecker.Toml

open Scan

/-- The number with decimal digits. -/
def decimalNumber (digits : List Char) : Nat :=
  digits.foldl (fun n c => n * 10 + (c.toNat - '0'.toNat)) 0

/-! ## Dates -/

/-- The number in exactly `count` decimal digits, at least `low` and at most `high`. -/
def fixedDigits (count low high : Nat) : Scan Nat :=
  checked (fun digits =>
    let n := decimalNumber digits
    if digits.length == count && digits.all Char.isDigit && low ≤ n && n ≤ high then some n
    else none) (take count)

/-- The number of days of a month. -/
def daysIn (year month : Nat) : Nat :=
  if month == 2 then
    if year % 4 == 0 && (year % 100 != 0 || year % 400 == 0) then 29 else 28
  else if month == 4 || month == 6 || month == 9 || month == 11 then 30
  else 31

/-- A date. Behind the year and a dash it has to go on as a date. -/
def date : Scan Unit := do
  let year ← fixedDigits 4 0 9999
  char '-'
  commit (do
    let month ← fixedDigits 2 1 12
    char '-'
    let _ ← fixedDigits 2 1 (daysIn year month))

/-- The fraction of a second. -/
def secondFraction : Scan Unit := do
  char '.'
  let _ ← atLeastOne Char.isDigit

/-- A time. Behind the hour and a colon it has to go on as a time. -/
def time : Scan Unit := do
  let _ ← fixedDigits 2 0 23
  char ':'
  commit (do
    let _ ← fixedDigits 2 0 59
    char ':'
    let _ ← fixedDigits 2 0 60
    let _ ← maybe secondFraction)

/-- The offset of a time from universal time. -/
def timeOffset : Scan Unit :=
  either (do let _ ← one fun c => c == 'Z' || c == 'z')
    (do
      let _ ← one fun c => c == '+' || c == '-'
      commit (do
        let _ ← fixedDigits 2 0 23
        char ':'
        let _ ← fixedDigits 2 0 59))

/-- The time of a date. -/
def timeOfDate : Scan Unit := do
  let _ ← one fun c => c == 'T' || c == 't' || c == ' '
  time
  let _ ← maybe timeOffset

/-- A date, perhaps with a time, or a time. -/
def datetime : Scan Value := do
  either (do date; let _ ← maybe timeOfDate) time
  return .datetime

/-! ## Digits -/

/-- One more digit of a number, perhaps after an underscore, which needs it. -/
def moreDigit (isDigit : Char → Bool) : Scan Char :=
  either (one isDigit) (do char '_'; commit (one isDigit))

/-- The digits of a number, of which there is at least one. -/
def digits (isDigit : Char → Bool) : Scan (List Char) := do
  let first ← one isDigit
  return first :: (← many (moreDigit isDigit))

/-- The sign of a number: whether it is a minus. -/
def sign : Scan Bool := do
  return (← maybe (one fun c => c == '+' || c == '-')) == some '-'

/-- The digits before the point. A zero stands alone. -/
def wholeDigits : Scan (List Char) :=
  either (do
    let first ← one fun c => c.isDigit && c != '0'
    return first :: (← many (moreDigit Char.isDigit)))
  (do return [← one Char.isDigit])

/-! ## Numbers with a fraction or an exponent -/

/-- Whether `digits` times ten to the `exponent` is too great for a double. -/
def exceedsDouble (digits : Nat) (exponent : Int) : Bool :=
  let size : Int := Text.digitCount digits + exponent
  if digits == 0 || size < 309 then false
  else if 310 < size then true
  else
    let scaled :=
      if 0 ≤ exponent then digits * Nat.pow 10 exponent.toNat
      else digits / Nat.pow 10 (-exponent).toNat
    Nat.pow 2 1024 - Nat.pow 2 970 ≤ scaled

/-- The exponent of a number. -/
def exponentPart : Scan Int := do
  let _ ← one fun c => c == 'e' || c == 'E'
  let negative ← sign
  let n : Int := decimalNumber (← commit (digits Char.isDigit))
  return if negative then -n else n

/-- The digits after the point. -/
def fractionPart : Scan (List Char) := do
  char '.'
  commit (digits Char.isDigit)

/-- An exponent, or a fraction and perhaps an exponent. -/
def floatPart : Scan (List Char × Int) :=
  either (do return ([], ← exponentPart))
    (do
      let fraction ← fractionPart
      return (fraction, (← maybe exponentPart).getD 0))

/-- A decimal number with a fraction or an exponent. One that is too great is an error where it
starts, unless it is negative. -/
def decimalFloat : Scan Value := do
  let start ← here
  let negative ← sign
  let whole ← wholeDigits
  let (fraction, exponent) ← floatPart
  if !negative
      && exceedsDouble (decimalNumber (whole ++ fraction)) (exponent - fraction.length) then
    throw ⟨true, start⟩
  return .float

/-- Infinity. -/
def infinity : Scan Value := do
  literal "inf"
  return .float

/-- Not a number. -/
def notANumber : Scan Value := do
  literal "nan"
  return .float

/-- A number with a fraction or an exponent, or a special one. -/
def float : Scan Value :=
  either decimalFloat (do
    let _ ← sign
    either infinity notANumber)

/-! ## Integers -/

/-- An integer of 64 bits. -/
def integerOf? (n : Int) : Option Value := if fitsInt64 n then some (.integer n) else none

/-- A decimal integer. -/
def decimalInteger : Scan Value := do
  let start ← here
  let negative ← sign
  let n : Int := decimalNumber (← wholeDigits)
  match integerOf? (if negative then -n else n) with
  | some value => return value
  | none => throw ⟨true, start⟩

/-- An integer in another base, from its mark on. -/
def integerInBase (mark : String) (base : Nat) : Scan Value :=
  commit (checked (fun found =>
    integerOf? (Int.ofNat (found.foldl (fun n c => n * base + (hexValue? c).getD 0) 0)))
    (do literal mark; digits fun c => (hexValue? c).any (· < base)))

/-- An integer. A mark after a zero tells its base. -/
def integer : Scan Value := fun cs =>
  match cs with
  | '0' :: 'x' :: _ => integerInBase "0x" 16 cs
  | '0' :: 'o' :: _ => integerInBase "0o" 8 cs
  | '0' :: 'b' :: _ => integerInBase "0b" 2 cs
  | _ => decimalInteger cs

/-- A date, a time or a number. -/
def number : Scan Value := either datetime (either float integer)

end UnionChecker.Toml
