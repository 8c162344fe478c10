import SteeredActors.Settings.Layers

/-!
# Settings from the environment

A variable whose name begins with the prefix sets what the rest of its name leads to, two
underscores standing for a dot. Its text is a boolean, an integer or a number if it looks like one.
-/

set_option autoImplicit false
set_option relaxedAutoImplicit false

namespace SteeredActors.Environment

open Text (isDigit digitsValue)

/-- Variables that are settings begin with this, in any case. -/
def marker : String := "marionette_"

/-- Two underscores in a row become a dot. -/
def dotted : List Char → List Char
  | '_' :: '_' :: rest => '.' :: dotted rest
  | c :: rest => c :: dotted rest
  | [] => []

/-- The setting that a variable sets. -/
def settingName? (name : String) : Option String :=
  let cs := name.toLower.toList
  if marker.toList.isPrefixOf cs then
    some (String.ofList (dotted (cs.drop marker.length)))
  else none

/-! ## Values -/

/-- A sign that may be left out. The flag marks a minus. -/
def sign : List Char → Bool × List Char
  | '-' :: rest => (true, rest)
  | '+' :: rest => (false, rest)
  | cs => (false, cs)

/-- An integer of 64 bits. -/
def integer? (cs : List Char) : Option Int :=
  let (negative, ds) := sign cs
  if ds.isEmpty || !ds.all isDigit then none
  else
    let magnitude : Int := digitsValue ds
    let i := if negative then -magnitude else magnitude
    if -(Nat.pow 2 63 : Int) ≤ i ∧ i < Nat.pow 2 63 then some i else none

/-- An exponent that is the rest of a text, zero if the text has ended. -/
def exponent? : List Char → Option Int
  | [] => some 0
  | c :: rest =>
    if c = 'e' || c = 'E' then
      let (negative, ds) := sign rest
      if ds.isEmpty || !ds.all isDigit then none
      else
        let magnitude : Int := digitsValue ds
        some (if negative then -magnitude else magnitude)
    else none

/-- A number in decimal with at least one digit before or after its point. -/
def decimal? (negative : Bool) (cs : List Char) : Option Binary64 :=
  let whole := cs.takeWhile isDigit
  let (places, rest) :=
    match cs.dropWhile isDigit with
    | '.' :: rest => (rest.takeWhile isDigit, rest.dropWhile isDigit)
    | rest => ([], rest)
  if whole.isEmpty && places.isEmpty then none
  else
    (exponent? rest).map fun power =>
      .ofDecimal negative (digitsValue (whole ++ places)) (power - places.length)

/-- A floating-point number. -/
def real? (s : String) : Option Binary64 :=
  let (negative, cs) := sign s.toList
  let word := (String.ofList cs).toLower
  if word = "inf" ∨ word = "infinity" then some (.infinite negative)
  else if word = "nan" then some .nan
  else decimal? negative cs

/-- What the text of a variable means. -/
def value (s : String) : RawSetting :=
  if s.toLower = "true" then .bool true
  else if s.toLower = "false" then .bool false
  else
    match integer? s.toList with
    | some i => .integer i
    | none =>
      match real? s with
      | some x => .real x
      | none => .text s

/-- Put variables, with their texts, over other settings, in order. -/
def overlay (target : RawSetting) (texts : List (String × String)) : RawSetting :=
  texts.foldl
    (fun target (name, text) =>
      match settingName? name with
      | some setting => target.putPath setting (value text)
      | none => target)
    target

end SteeredActors.Environment
