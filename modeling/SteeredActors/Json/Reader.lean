import SteeredActors.Json.Basic
import SteeredActors.Text.Digits

/-!
# Reading interchange text

A reader for whole documents: one value with blanks around it and nothing after it. Numbers have no
leading zeros, texts no bare controls, and lists and objects no comma before their closing bracket.
The fuel of the mutual readers counts steps, of which a document needs at most one per character.
-/

set_option autoImplicit false
set_option relaxedAutoImplicit false

namespace SteeredActors.Json

open Text (isDigit hexValue? digitsValue)

/-- The blanks between tokens. -/
def isBlank (c : Char) : Bool := c = ' ' || c = '\n' || c = '\t' || c = '\r'

/-- The text from its first character that is not blank. -/
def skipBlank (cs : List Char) : List Char := cs.dropWhile isBlank

/-- The number that four hexadecimal digits write. -/
def hexWord? (a b c d : Char) : Option Nat := do
  return (((← hexValue? a) * 16 + (← hexValue? b)) * 16 + (← hexValue? c)) * 16 + (← hexValue? d)

/-- The first half of a surrogate pair. -/
def isLeading (n : Nat) : Bool := 0xD800 ≤ n && n < 0xDC00

/-- The second half of a surrogate pair. -/
def isTrailing (n : Nat) : Bool := 0xDC00 ≤ n && n < 0xE000

/-- The character that a short escape stands for. -/
def shortEscape? (c : Char) : Option Char :=
  if c = '"' then some '"'
  else if c = '\\' then some '\\'
  else if c = '/' then some '/'
  else if c = 'b' then some '\x08'
  else if c = 'f' then some '\x0c'
  else if c = 'n' then some '\n'
  else if c = 'r' then some '\r'
  else if c = 't' then some '\t'
  else none

/-- Put a character before a text; nothing can be put before a text that is broken. -/
def consText (c : Char) : Option (List Char) × List Char → Option (List Char) × List Char
  | (s, rest) => (s.map (c :: ·), rest)

/-- Mark a text as broken if half a surrogate pair is left over. -/
def breakIf (leftOver : Bool) : Option (List Char) × List Char → Option (List Char) × List Char
  | (s, rest) => (if leftOver then none else s, rest)

/-- A text after its opening quote, with what follows the closing one. `leading` is the first half
of a surrogate pair that was just read. The inner `none` marks a text with half a pair. -/
def textBody (leading : Option Nat) : List Char → Option (Option (List Char) × List Char)
  | [] => none
  | '"' :: rest => some (breakIf leading.isSome (some [], rest))
  | '\\' :: 'u' :: a :: b :: c :: d :: rest =>
    match hexWord? a b c d with
    | none => none
    | some code =>
      if isLeading code then (textBody (some code) rest).map (breakIf leading.isSome)
      else if isTrailing code then
        match leading with
        | some first =>
          let pair := 0x10000 + (first - 0xD800) * 0x400 + (code - 0xDC00)
          (textBody none rest).map (consText (Char.ofNat pair))
        | none => (textBody none rest).map (breakIf true)
      else (textBody none rest).map (breakIf leading.isSome ∘ consText (Char.ofNat code))
  | '\\' :: c :: rest =>
    match shortEscape? c with
    | none => none
    | some e => (textBody none rest).map (breakIf leading.isSome ∘ consText e)
  | c :: rest =>
    if c.toNat < 32 then none
    else (textBody none rest).map (breakIf leading.isSome ∘ consText c)

/-- Digits without a leading zero, unless they are that zero. -/
def wholePart? (cs : List Char) : Option (List Char × List Char) :=
  match cs.takeWhile isDigit with
  | [] => none
  | ['0'] => some (['0'], cs.dropWhile isDigit)
  | '0' :: _ => none
  | ds => some (ds, cs.dropWhile isDigit)

/-- What follows a fraction, if there is one. The flag tells whether there was. -/
def skipFraction? : List Char → Option (Bool × List Char)
  | '.' :: rest =>
    if (rest.takeWhile isDigit).isEmpty then none else some (true, rest.dropWhile isDigit)
  | cs => some (false, cs)

/-- What follows an exponent, if there is one. The flag tells whether there was. -/
def skipExponent? (cs : List Char) : Option (Bool × List Char) :=
  match cs with
  | c :: rest =>
    if c = 'e' || c = 'E' then
      let digits :=
        match rest with
        | s :: more => if s = '+' || s = '-' then more else rest
        | [] => []
      if (digits.takeWhile isDigit).isEmpty then none else some (true, digits.dropWhile isDigit)
    else some (false, cs)
  | [] => some (false, [])

/-- A number without its sign. -/
def unsigned? (cs : List Char) : Option (Json × List Char) := do
  let (ds, rest) ← wholePart? cs
  let (fraction, rest) ← skipFraction? rest
  let (exponent, rest) ← skipExponent? rest
  return (if fraction || exponent then .otherNumber else .natural (digitsValue ds), rest)

/-- A number. -/
def number? : List Char → Option (Json × List Char)
  | '-' :: rest => (unsigned? rest).map fun (_, r) => (.otherNumber, r)
  | cs => unsigned? cs

mutual

/-- A value at the start of the text. -/
def value? : Nat → List Char → Option (Json × List Char)
  | 0, _ => none
  | fuel + 1, '[' :: rest =>
    match skipBlank rest with
    | ']' :: rest => some (.list [], rest)
    | rest => (items? fuel rest).map fun (items, r) => (.list items, r)
  | fuel + 1, '\x7b' :: rest =>
    match skipBlank rest with
    | '\x7d' :: rest => some (.object [], rest)
    | rest => (members? fuel rest).map fun (members, r) => (.object members, r)
  | _ + 1, '"' :: rest =>
    (textBody none rest).map fun (s, r) =>
      (match s with
        | some s => .text (String.ofList s)
        | none => .unpairedText, r)
  | _ + 1, 'n' :: 'u' :: 'l' :: 'l' :: rest => some (.null, rest)
  | _ + 1, 't' :: 'r' :: 'u' :: 'e' :: rest => some (.bool true, rest)
  | _ + 1, 'f' :: 'a' :: 'l' :: 's' :: 'e' :: rest => some (.bool false, rest)
  | _ + 1, cs => number? cs

/-- At least one item and the closing bracket. -/
def items? : Nat → List Char → Option (List Json × List Char)
  | 0, _ => none
  | fuel + 1, cs => do
    let (item, rest) ← value? fuel (skipBlank cs)
    match skipBlank rest with
    | ']' :: rest => return ([item], rest)
    | ',' :: rest =>
      let (items, rest) ← items? fuel rest
      return (item :: items, rest)
    | _ => none

/-- At least one member and the closing brace. -/
def members? : Nat → List Char → Option (List (String × Json) × List Char)
  | 0, _ => none
  | fuel + 1, cs => do
    let (name, rest) ←
      match skipBlank cs with
      | '"' :: rest => textBody none rest
      | _ => none
    let name ← name
    let value ←
      match skipBlank rest with
      | ':' :: rest => value? fuel (skipBlank rest)
      | _ => none
    let member := (String.ofList name, value.1)
    match skipBlank value.2 with
    | '\x7d' :: rest => return ([member], rest)
    | ',' :: rest =>
      let (members, rest) ← members? fuel rest
      return (member :: members, rest)
    | _ => none

end

/-- The document that a text writes, if it writes one. -/
def parse? (s : String) : Option Json := do
  let cs := s.toList
  let (j, rest) ← value? (cs.length + 1) (skipBlank cs)
  if (skipBlank rest).isEmpty then return j else none

end SteeredActors.Json
