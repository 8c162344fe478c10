import SteeredActors.Binary64
import SteeredActors.Text.Digits

/-!
# Numbers and dates in settings files

Integers have 64 bits and are decimal, with a sign and no leading zeros, or have another base and no
sign. Single underscores may separate digits. A date, a time or both with an offset is kept as the
text that prints it.
-/

set_option autoImplicit false
set_option relaxedAutoImplicit false

namespace SteeredActors.Toml

open Text (isDigit isDigitOf digitsValue valueInBase)

/-! ## Digits -/

/-- Digits with single underscores between or before them. -/
def moreDigits (digit : Char → Bool) : List Char → List Char × List Char
  | [] => ([], [])
  | '_' :: c :: rest =>
    if digit c then
      let (ds, rest) := moreDigits digit rest
      (c :: ds, rest)
    else ([], '_' :: c :: rest)
  | c :: rest =>
    if digit c then
      let (ds, rest) := moreDigits digit rest
      (c :: ds, rest)
    else ([], c :: rest)

/-- At least one digit. -/
def digits? (digit : Char → Bool) : List Char → Option (List Char × List Char)
  | [] => none
  | c :: rest =>
    if digit c then
      let (ds, rest) := moreDigits digit rest
      some (c :: ds, rest)
    else none

/-- Decimal digits without a leading zero, unless they are that zero. -/
def wholeDigits? : List Char → Option (List Char × List Char)
  | '0' :: rest => some (['0'], rest)
  | cs => digits? isDigit cs

/-- A sign that may be left out. The flag marks a minus. -/
def sign : List Char → Bool × List Char
  | '-' :: rest => (true, rest)
  | '+' :: rest => (false, rest)
  | cs => (false, cs)

/-! ## Integers -/

/-- An integer of 64 bits. -/
def bounded? (i : Int) : Option Int := 
  if -(Nat.pow 2 63 : Int) ≤ i ∧ i < Nat.pow 2 63 then some i else none

/-- The digits of an integer in a base other than ten. -/
def integerInBase? (base : Nat) (cs : List Char) : Option (Int × List Char) := do
  let (ds, rest) ← digits? (isDigitOf base) cs
  return (← bounded? (valueInBase base ds), rest)

/-- An integer. -/
def integer? : List Char → Option (Int × List Char)
  | '0' :: 'x' :: rest => integerInBase? 16 rest
  | '0' :: 'o' :: rest => integerInBase? 8 rest
  | '0' :: 'b' :: rest => integerInBase? 2 rest
  | cs => do
    let (negative, cs) := sign cs
    let (ds, rest) ← wholeDigits? cs
    let magnitude : Int := digitsValue ds
    return (← bounded? (if negative then -magnitude else magnitude), rest)

/-! ## Floating point -/

/-- The digits of a fraction, if there is one. -/
def fraction? : List Char → Option (List Char × List Char)
  | '.' :: rest => digits? isDigit rest
  | _ => none

/-- An exponent, if there is one. -/
def exponent? : List Char → Option (Int × List Char)
  | [] => none
  | c :: rest =>
    if c = 'e' || c = 'E' then do
      let (negative, rest) := sign rest
      let (ds, rest) ← digits? isDigit rest
      let magnitude : Int := digitsValue ds
      return (if negative then -magnitude else magnitude, rest)
    else none

/-- A number with a fraction or an exponent. -/
def decimal? (cs : List Char) : Option (Binary64 × List Char) := do
  let (negative, cs) := sign cs
  let (whole, rest) ← wholeDigits? cs
  let fraction := fraction? rest
  let (places, rest) := fraction.getD ([], rest)
  let exponent := exponent? rest
  let (power, rest) := exponent.getD (0, rest)
  if fraction.isNone && exponent.isNone then none
  else
    let x := Binary64.ofDecimal negative (digitsValue (whole ++ places)) (power - places.length)
    if x = .infinite false then none else some (x, rest)

/-- Infinity or no number, with a sign. -/
def special? (cs : List Char) : Option (Binary64 × List Char) :=
  match sign cs with
  | (negative, 'i' :: 'n' :: 'f' :: rest) => some (.infinite negative, rest)
  | (_, 'n' :: 'a' :: 'n' :: rest) => some (.nan, rest)
  | _ => none

/-- A floating-point number. -/
def real? (cs : List Char) : Option (Binary64 × List Char) :=
  match decimal? cs with
  | some read => some read
  | none => special? cs

/-! ## Dates and times -/

/-- A number with exactly this many digits. -/
def fixed? (count : Nat) (cs : List Char) : Option (Nat × List Char) :=
  let ds := cs.take count
  if ds.length = count ∧ ds.all isDigit then some (digitsValue ds, cs.drop count) else none

/-- What follows a character. -/
def past? (c : Char) : List Char → Option (List Char)
  | [] => none
  | first :: rest => if first = c then some rest else none

/-- How many days a month has. -/
def daysIn (year month : Nat) : Nat :=
  if month = 2 then
    if year % 4 = 0 ∧ (year % 100 ≠ 0 ∨ year % 400 = 0) then 29 else 28
  else if month = 4 ∨ month = 6 ∨ month = 9 ∨ month = 11 then 30
  else 31

/-- A date. -/
def date? (cs : List Char) : Option (List Char × List Char) := do
  let (year, rest) ← fixed? 4 cs
  let (month, rest) ← fixed? 2 (← past? '-' rest)
  let (day, rest) ← fixed? 2 (← past? '-' rest)
  if 1 ≤ month ∧ month ≤ 12 ∧ 1 ≤ day ∧ day ≤ daysIn year month then some (cs.take 10, rest)
  else none

/-- The fraction of a second, to the billionth and without zeros at its end. -/
def secondFraction (cs : List Char) : List Char × List Char :=
  match cs with
  | '.' :: rest =>
    match rest.takeWhile isDigit with
    | [] => ([], cs)
    | ds =>
      let kept := ((ds.take 9).reverse.dropWhile (· = '0')).reverse
      (if kept.isEmpty then [] else '.' :: kept, rest.dropWhile isDigit)
  | _ => ([], cs)

/-- A time of day, in which a leap second may occur. -/
def time? (cs : List Char) : Option (List Char × List Char) := do
  let (hour, rest) ← fixed? 2 cs
  let (minute, rest) ← fixed? 2 (← past? ':' rest)
  let (second, rest) ← fixed? 2 (← past? ':' rest)
  if hour < 24 ∧ minute < 60 ∧ second ≤ 60 then
    let (fraction, rest) := secondFraction rest
    some (cs.take 8 ++ fraction, rest)
  else none

/-- A distance from universal time. None is written with a plus. -/
def offset? : List Char → Option (List Char × List Char)
  | [] => none
  | c :: cs =>
    if c = 'Z' || c = 'z' then some (['Z'], cs)
    else if c = '+' || c = '-' then do
      let (hour, rest) ← fixed? 2 cs
      let (minute, rest) ← fixed? 2 (← past? ':' rest)
      if hour < 24 ∧ minute < 60 then
        some ((if hour = 0 ∧ minute = 0 then '+' else c) :: cs.take 5, rest)
      else none
    else none

/-- The time of day after a date, with an offset. -/
def timeAfterDate? : List Char → Option (List Char × List Char)
  | [] => none
  | c :: cs =>
    if c = 'T' || c = 't' || c = ' ' then do
      let (time, rest) ← time? cs
      let (offset, rest) := (offset? rest).getD ([], rest)
      return (time ++ offset, rest)
    else none

/-- A date, a time or both. -/
def moment? (cs : List Char) : Option (List Char × List Char) :=
  match date? cs with
  | some (date, rest) =>
    match timeAfterDate? rest with
    | some (time, rest) => some (date ++ 'T' :: time, rest)
    | none => some (date, rest)
  | none => time? cs

end SteeredActors.Toml
