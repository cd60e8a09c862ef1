import TreeLint.Number.Binary64

/-!
# Shortest decimals

A floating-point number is written with the fewest digits that read back as it, and of two such
decimals with the nearer one. The decimal point stands where it falls for magnitudes from `10 ^ -4`
to below `10 ^ 16`; outside, an exponent of at least two digits is written.
-/

set_option autoImplicit false

namespace TreeLint.Number.Binary64

/-- A positive number and the ends of the interval of reals that round to it, over one common
denominator. -/
structure Neighbourhood where
  low : Nat
  value : Nat
  high : Nat
  denominator : Nat
  /-- Whether the two ends themselves round to the number. -/
  closed : Bool

/-- The ends lie half way to the two neighbours. Below a power of two the neighbour is nearer. -/
def neighbourhood (mantissa : Nat) (exponent : Int) : Neighbourhood :=
  let below := if mantissa == Nat.pow 2 52 && exponent > -1074 then 1 else 2
  let shift := exponent - 2
  let factor := if shift < 0 then 1 else Nat.pow 2 shift.natAbs
  { low := (4 * mantissa - below) * factor
    value := 4 * mantissa * factor
    high := (4 * mantissa + 2) * factor
    denominator := if shift < 0 then Nat.pow 2 shift.natAbs else 1
    closed := mantissa % 2 == 0 }

/-- Whether `numerator / denominator` rounds to the number. -/
def Neighbourhood.holds (n : Neighbourhood) (numerator denominator : Nat) : Bool :=
  let scaled := numerator * n.denominator
  if n.closed then n.low * denominator ≤ scaled && scaled ≤ n.high * denominator
  else n.low * denominator < scaled && scaled < n.high * denominator

/-- The number of digits in front of the decimal point; zero or negative below one. -/
def Neighbourhood.point (n : Neighbourhood) : Int :=
  ((Nat.toDigits 10 (n.value * Nat.pow 10 400 / n.denominator)).length : Int) - 400

/-- The decimal of `count` digits that is nearest to the number, if one rounds to it: its digits as
an integer. -/
def Neighbourhood.digits? (n : Neighbourhood) (count : Nat) : Option Nat :=
  let scale : Int := count - n.point
  let up := if scale < 0 then 1 else Nat.pow 10 scale.natAbs
  let down := if scale < 0 then Nat.pow 10 scale.natAbs else 1
  let numerator := n.value * up
  let denominator := n.denominator * down
  let floor := numerator / denominator
  let ceiling := floor + 1
  match n.holds (floor * down) up, n.holds (ceiling * down) up with
  | true, true => some (roundDiv numerator denominator)
  | true, false => some floor
  | false, true => some ceiling
  | false, false => none

/-- Tries digit counts from `count` on; seventeen digits always read back. -/
def Neighbourhood.shortestFrom (n : Neighbourhood) (count : Nat) : Nat → Nat × Nat
  | 0 => (count, roundDiv n.value n.denominator)
  | tries + 1 =>
      match n.digits? count with
      | some digits => (count, digits)
      | none => n.shortestFrom (count + 1) tries

/-- The digits of the shortest decimal, without trailing zeros, and where the point falls in them. -/
def shortest (mantissa : Nat) (exponent : Int) : List Char × Int :=
  let n := neighbourhood mantissa exponent
  let (count, digits) := n.shortestFrom 1 17
  let written := Nat.toDigits 10 digits
  let point := n.point + (written.length : Int) - count
  ((written.reverse.dropWhile (· == '0')).reverse, point)

def positional (digits : List Char) (point : Int) : List Char :=
  if point ≤ 0 then '0' :: '.' :: List.replicate point.natAbs '0' ++ digits
  else
    let whole := point.toNat
    if digits.length ≤ whole then digits ++ List.replicate (whole - digits.length) '0' ++ ['.', '0']
    else digits.take whole ++ '.' :: digits.drop whole

def scientific (digits : List Char) (point : Int) : List Char :=
  let exponent := point - 1
  let size := Nat.toDigits 10 exponent.natAbs
  let fraction :=
    match digits.drop 1 with
    | [] => []
    | rest => '.' :: rest
  digits.take 1 ++ fraction ++ 'e' :: (if exponent < 0 then '-' else '+') ::
    (List.replicate (2 - size.length) '0' ++ size)

def text : Binary64 → String
  | nan => "nan"
  | infinite negative => if negative then "-inf" else "inf"
  | finite negative mantissa exponent =>
      let written :=
        if mantissa == 0 then ['0', '.', '0']
        else
          let (digits, point) := shortest mantissa exponent
          if -4 < point && point ≤ 16 then positional digits point else scientific digits point
      String.ofList (if negative then '-' :: written else written)

end TreeLint.Number.Binary64
