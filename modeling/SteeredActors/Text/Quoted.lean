import SteeredActors.Text.Hidden

/-!
# Quoted text

The form in which names and keys appear inside diagnostic output: between double quotes, with a
backslash before quotes and backslashes, short escapes for the usual controls, and the hexadecimal
code point in braces for everything else that does not print.
-/

set_option autoImplicit false
set_option relaxedAutoImplicit false

namespace SteeredActors.Text.Quoted

/-- The hexadecimal digits of a number, in lower case and without leading zeros. -/
def hexDigits (n : Nat) : List Char := Nat.toDigits 16 n

/-- A character that is shown as itself. -/
def isPlain (c : Char) : Bool := !isHidden c

/-- One character inside the quotes. -/
def escape (c : Char) : List Char :=
  if c = '"' then ['\\', '"']
  else if c = '\\' then ['\\', '\\']
  else if c = '\t' then ['\\', 't']
  else if c = '\n' then ['\\', 'n']
  else if c = '\r' then ['\\', 'r']
  else if c = '\x00' then ['\\', '0']
  else if isPlain c then [c]
  else ['\\', 'u', '\x7b'] ++ hexDigits c.toNat ++ ['\x7d']

/-- The text between double quotes. -/
def encode (s : String) : String :=
  String.ofList ('"' :: s.toList.flatMap escape ++ ['"'])

/-- A bracketed list of quoted texts. -/
def encodeList (items : List String) : String :=
  "[" ++ ", ".intercalate (items.map encode) ++ "]"

end SteeredActors.Text.Quoted
