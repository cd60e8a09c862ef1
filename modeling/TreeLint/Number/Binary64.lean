/-!
# Binary floating-point numbers of 64 bits

A finite number is a sign, a mantissa and a power of two, taken exactly. The mantissa is below
`2 ^ 53`, the exponent is at least `-1074`, and a mantissa below `2 ^ 52` goes with that least
exponent only.
-/

set_option autoImplicit false

namespace TreeLint.Number

inductive Binary64 where
  | nan
  | infinite (negative : Bool)
  /-- The number `± mantissa * 2 ^ exponent`. -/
  | finite (negative : Bool) (mantissa : Nat) (exponent : Int)
  deriving DecidableEq, Repr

namespace Binary64

/-- Whether the number is a zero, of either sign. -/
def isZero : Binary64 → Bool
  | finite _ mantissa _ => mantissa == 0
  | _ => false

/-- The quotient to the nearest integer; a half goes to the even neighbour. -/
def roundDiv (numerator denominator : Nat) : Nat :=
  let quotient := numerator / denominator
  let twice := 2 * (numerator % denominator)
  if twice < denominator then quotient
  else if denominator < twice then quotient + 1
  else quotient + quotient % 2

/-- The mantissa and exponent nearest to `numerator / denominator`, scaled by the exponent that
leaves the quotient below `2 ^ 53` and, the least exponent apart, not below `2 ^ 52`. -/
def nearest (negative : Bool) (numerator denominator : Nat) : Binary64 :=
  let scaled (exponent : Int) : Nat × Nat :=
    if exponent < 0 then (numerator * Nat.pow 2 exponent.natAbs, denominator)
    else (numerator, denominator * Nat.pow 2 exponent.natAbs)
  let guess : Int := (Nat.log2 numerator : Int) - (Nat.log2 denominator : Int) - 52
  let quotient := (scaled guess).1 / (scaled guess).2
  let fitted : Int := if quotient < Nat.pow 2 52 then guess - 1 else guess
  let exponent := max fitted (-1074)
  let mantissa := roundDiv (scaled exponent).1 (scaled exponent).2
  let carried := mantissa == Nat.pow 2 53
  let mantissa := if carried then Nat.pow 2 52 else mantissa
  let exponent := if carried then exponent + 1 else exponent
  if exponent > 971 then infinite negative else finite negative mantissa exponent

/-- The number nearest to `± digits * 10 ^ exponent`. Beyond the range it is infinite, and far
below the least positive number it is zero. -/
def ofDecimal (negative : Bool) (digits : Nat) (exponent : Int) : Binary64 :=
  let width : Int := (Nat.toDigits 10 digits).length
  if digits == 0 || exponent + width < -330 then finite negative 0 (-1074)
  else if exponent + width > 310 then infinite negative
  else if exponent < 0 then nearest negative digits (Nat.pow 10 exponent.natAbs)
  else nearest negative (digits * Nat.pow 10 exponent.natAbs) 1

/-- The integer part, for finite numbers: towards zero. -/
def truncate (negative : Bool) (mantissa : Nat) (exponent : Int) : Int :=
  let magnitude : Nat :=
    if exponent < 0 then mantissa / Nat.pow 2 exponent.natAbs
    else mantissa * Nat.pow 2 exponent.natAbs
  if negative then -(magnitude : Int) else magnitude

end Binary64

end TreeLint.Number
