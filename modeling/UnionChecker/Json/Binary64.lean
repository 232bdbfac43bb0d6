/-!
# Double precision numbers as data

A double is held as its 64 bits, so that two of them are the same exactly when their bits are. The
arithmetic of reading a decimal is done once, here: the digits are rounded to a double and then
multiplied or divided by a power of ten.
-/

namespace UnionChecker

/-- An IEEE-754 binary64 number, given by its bits. -/
structure Binary64 where
  bits : UInt64
deriving DecidableEq, Repr

namespace Binary64

def ofFloat (x : Float) : Binary64 := ⟨x.toBits⟩

/-- The double nearest to an integer of at most 64 bits. -/
def ofInt (n : Int) : Binary64 :=
  match n with
  | .ofNat m => ofFloat m.toUInt64.toFloat
  | .negSucc m => ofFloat (-(m + 1).toUInt64.toFloat)

/-- `x · 10^exponent`. A power of ten beyond the doubles is reached in steps of 308 when it makes
the number smaller, and is out of range when it makes it larger. -/
def scale (x : Float) (exponent : Int) : (steps : Nat) → Option Float
  | 0 => some 0.0
  | steps + 1 =>
    if exponent.natAbs ≤ 308 then
      let power := Float.ofScientific 1 false exponent.natAbs
      if exponent < 0 then some (x / power)
      else
        let y := x * power
        if y.isInf then none else some y
    else if x == 0.0 then some x
    else if 0 ≤ exponent then none
    else scale (x / 1e308) (exponent + 308) steps

/-- The double read from a significand, a decimal exponent and a sign; `none` when it is out of
range. -/
def ofDecimal? (negative : Bool) (significand : UInt64) (exponent : Int) : Option Binary64 :=
  (scale significand.toFloat exponent 4).map fun x => ofFloat (if negative then -x else x)

/-- The exact value of a finite number as `(negative, n, k)`, standing for `± n · 10^-k`. -/
def exactDecimal (x : Binary64) : Bool × Nat × Nat :=
  let unit := Nat.pow 2 52
  let negative := x.bits.toNat / Nat.pow 2 63 == 1
  let field := x.bits.toNat / unit % Nat.pow 2 11
  let fraction := x.bits.toNat % unit
  let significand := if field == 0 then fraction else fraction + unit
  let exponent := (Int.ofNat (if field == 0 then 1 else field)) - 1075
  if 0 ≤ exponent then (negative, significand * Nat.pow 2 exponent.toNat, 0)
  else (negative, significand * Nat.pow 5 exponent.natAbs, exponent.natAbs)

/-- A finite number as `(negative, n, e)`, standing for `± n · 10^e`, rounded to seventeen digits.
These tell any two doubles apart. -/
def decimal (x : Binary64) : Bool × Nat × Int :=
  let (negative, n, k) := x.exactDecimal
  let extra := (Nat.toDigits 10 n).length - 17
  let unit := Nat.pow 10 extra
  let rounded := (2 * n + unit) / (2 * unit)
  (negative, rounded, (extra : Int) - k)

end Binary64

end UnionChecker
