/-!
# Binary numbers of 64 bits

Floating-point numbers as exact values: a mantissa times a power of two. A decimal is read as the
nearest number, an even mantissa winning ties, and a number is written with the fewest decimal
digits that read back as it.
-/

set_option autoImplicit false
set_option relaxedAutoImplicit false

namespace SteeredActors

/-- A floating-point number: `mantissa * 2 ^ exponent` if it is finite. -/
inductive Binary64 where
  | nan
  | infinite (negative : Bool)
  | finite (negative : Bool) (mantissa : Nat) (exponent : Int)
deriving DecidableEq, Repr

namespace Binary64

/-- Mantissas have this many bits. -/
def precision : Nat := 53

/-- The exponent of the smallest numbers. -/
def minExponent : Int := -1074

/-- The exponent of the largest numbers. -/
def maxExponent : Int := 971

/-- `num / den` divided by a power of a base, as a fraction. -/
def scale (base num den : Nat) (power : Int) : Nat × Nat :=
  if 0 ≤ power then (num, den * base.pow power.toNat) else (num * base.pow (-power).toNat, den)

/-- The nearest natural number to a fraction, the even one if two are equally near. -/
def nearest (num den : Nat) : Nat :=
  let floor := num / den
  let twice := 2 * (num % den)
  if twice < den then floor
  else if den < twice then floor + 1
  else floor + floor % 2

/-- The number nearest to a fraction that is not negative. -/
def ofFraction (negative : Bool) (num den : Nat) : Binary64 :=
  if num = 0 then .finite negative 0 minExponent
  else
    let guess := max ((num.log2 : Int) - den.log2 - precision) minExponent
    let (n, d) := scale 2 num den guess
    let exponent := if n / d < Nat.pow 2 precision then guess else guess + 1
    let (n, d) := scale 2 num den exponent
    let mantissa := nearest n d
    let (mantissa, exponent) :=
      if mantissa = Nat.pow 2 precision then (Nat.pow 2 (precision - 1), exponent + 1)
      else (mantissa, exponent)
    if maxExponent < exponent then .infinite negative else .finite negative mantissa exponent

/-- How many decimal digits a number has. -/
def digitCount (n : Nat) : Nat := (Nat.toDigits 10 n).length

/-- The number nearest to `digits * 10 ^ power`. -/
def ofDecimal (negative : Bool) (digits : Nat) (power : Int) : Binary64 :=
  let magnitude := power + digitCount digits
  if digits = 0 ∨ magnitude < -400 then .finite negative 0 minExponent
  else if 400 < magnitude then .infinite negative
  else
    let (num, den) := scale 10 digits 1 (-power)
    ofFraction negative num den

/-- The number is a zero of either sign. -/
def isZero : Binary64 → Bool
  | .finite _ 0 _ => true
  | _ => false

/-- The nearest number from zero to a limit, a half going away from zero; no number counts as
zero. -/
def toNatUpTo (limit : Nat) : Binary64 → Nat
  | .nan | .infinite true | .finite true _ _ => 0
  | .infinite false => limit
  | .finite false mantissa exponent =>
    let (num, den) := scale 2 mantissa 1 (-exponent)
    min limit ((2 * num + den) / (2 * den))

/-! ## Writing -/

/-- The position of the first digit of a positive fraction: `10 ^ (k - 1) ≤ num / den < 10 ^ k`. -/
def leadingPosition (num den : Nat) : Int :=
  if den ≤ num then digitCount (num / den)
  else 1 - ((List.range 400).find? fun k => den ≤ num * Nat.pow 10 k).getD 400

/-- The decimal with a number of digits that reads back as a given number, the nearer one if there
are two. -/
def decimalWith? (x : Binary64) (num den : Nat) (digits : Nat) : Option (Nat × Int) :=
  let power := leadingPosition num den - digits
  let (n, d) := scale 10 num den power
  let low := n / d
  let readsBack (digits : Nat) : Bool := ofDecimal false digits power == x
  let above :=
    if low + 1 = Nat.pow 10 digits then (Nat.pow 10 (digits - 1), power + 1) else (low + 1, power)
  if readsBack low && readsBack (low + 1) then
    some (if d ≤ 2 * (n % d) then above else (low, power))
  else if readsBack low then some (low, power)
  else if readsBack (low + 1) then some above
  else none

/-- The shortest decimal that reads back as a positive number. -/
def shortest (mantissa : Nat) (exponent : Int) : Nat × Int :=
  let (num, den) := scale 2 mantissa 1 (-exponent)
  let x : Binary64 := .finite false mantissa exponent
  ((List.range 17).findSome? fun digits => decimalWith? x num den (digits + 1)).getD (0, 0)

/-- A decimal without an exponent. -/
def positional (digits : Nat) (power : Int) : String :=
  let ds := Nat.toDigits 10 digits
  if 0 ≤ power then String.ofList (ds ++ List.replicate power.toNat '0')
  else
    let places := (-power).toNat
    let padded := List.replicate (places + 1 - ds.length) '0' ++ ds
    let whole := padded.take (padded.length - places)
    String.ofList (whole ++ '.' :: padded.drop (padded.length - places))

/-- A number in decimal, never with an exponent. -/
def render : Binary64 → String
  | .nan => "NaN"
  | .infinite negative => if negative then "-inf" else "inf"
  | .finite negative mantissa exponent =>
    let sign := if negative then "-" else ""
    if mantissa = 0 then sign ++ "0"
    else
      let (digits, power) := shortest mantissa exponent
      sign ++ positional digits power

end Binary64

end SteeredActors
