import SteeredActors.Json.Basic

/-!
# Writing interchange text

Two layouts of one document: without any space, and with one item per line, indented by two spaces
for each enclosing list or object.
-/

set_option autoImplicit false
set_option relaxedAutoImplicit false

namespace SteeredActors.Json

/-- A hexadecimal digit in lower case. -/
def hexDigit (n : Nat) : Char := Nat.digitChar n

/-- One character of a text. Controls are escaped, everything from the space on is kept. -/
def escape (c : Char) : List Char :=
  if c = '"' then ['\\', '"']
  else if c = '\\' then ['\\', '\\']
  else if c = '\x08' then ['\\', 'b']
  else if c = '\x0c' then ['\\', 'f']
  else if c = '\n' then ['\\', 'n']
  else if c = '\r' then ['\\', 'r']
  else if c = '\t' then ['\\', 't']
  else if c.toNat < 32 then
    ['\\', 'u', '0', '0', hexDigit (c.toNat / 16), hexDigit (c.toNat % 16)]
  else [c]

/-- A text between double quotes. -/
def quoted (s : String) : List Char := '"' :: s.toList.flatMap escape ++ ['"']

mutual

/-- The document without any space. -/
def compactChars : Json → List Char
  | .null => ['n', 'u', 'l', 'l']
  | .bool true => ['t', 'r', 'u', 'e']
  | .bool false => ['f', 'a', 'l', 's', 'e']
  | .natural n => Nat.toDigits 10 n
  | .otherNumber => ['-', '0']
  | .text s => quoted s
  | .unpairedText => ['"', '\\', 'u', 'd', '8', '0', '0', '"']
  | .list [] => ['[', ']']
  | .list (item :: items) => '[' :: compactChars item ++ compactItems items
  | .object [] => ['\x7b', '\x7d']
  | .object ((name, value) :: members) =>
    '\x7b' :: quoted name ++ ':' :: compactChars value ++ compactMembers members

/-- The items after the first one, with the closing bracket. -/
def compactItems : List Json → List Char
  | [] => [']']
  | item :: items => ',' :: compactChars item ++ compactItems items

/-- The members after the first one, with the closing brace. -/
def compactMembers : List (String × Json) → List Char
  | [] => ['\x7d']
  | (name, value) :: members =>
    ',' :: quoted name ++ ':' :: compactChars value ++ compactMembers members

end

/-- A new line at a depth. -/
def newLine (depth : Nat) : List Char := '\n' :: List.replicate (2 * depth) ' '

mutual

/-- The document with one item per line, at a depth of enclosing lists and objects. -/
def prettyChars (depth : Nat) : Json → List Char
  | .list (item :: items) =>
    '[' :: newLine (depth + 1) ++ prettyChars (depth + 1) item ++ prettyItems depth items
  | .object ((name, value) :: members) =>
    '\x7b' :: newLine (depth + 1) ++ quoted name ++ [':', ' ']
      ++ prettyChars (depth + 1) value ++ prettyMembers depth members
  | .list [] => compactChars (.list [])
  | .object [] => compactChars (.object [])
  | .null => compactChars .null
  | .bool b => compactChars (.bool b)
  | .natural n => compactChars (.natural n)
  | .otherNumber => compactChars .otherNumber
  | .text s => compactChars (.text s)
  | .unpairedText => compactChars .unpairedText

/-- The items after the first one, each on its line, with the closing bracket. -/
def prettyItems (depth : Nat) : List Json → List Char
  | [] => newLine depth ++ [']']
  | item :: items =>
    ',' :: newLine (depth + 1) ++ prettyChars (depth + 1) item ++ prettyItems depth items

/-- The members after the first one, each on its line, with the closing brace. -/
def prettyMembers (depth : Nat) : List (String × Json) → List Char
  | [] => newLine depth ++ ['\x7d']
  | (name, value) :: members =>
    ',' :: newLine (depth + 1) ++ quoted name ++ [':', ' ']
      ++ prettyChars (depth + 1) value ++ prettyMembers depth members

end

/-- The document without any space. -/
def compact (j : Json) : String := String.ofList (compactChars j)

/-- The document with one item per line. -/
def pretty (j : Json) : String := String.ofList (prettyChars 0 j)

end SteeredActors.Json
