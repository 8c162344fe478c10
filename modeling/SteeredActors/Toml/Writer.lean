/-!
# Writing settings files

One `name = value` a line, and a heading with a blank line before it for each group of them. A text
is written in the plainest way that needs no escapes; only if there is none, with them.
-/

set_option autoImplicit false
set_option relaxedAutoImplicit false

namespace SteeredActors.Toml

/-! ## Texts -/

/-- A character that no text may hold without an escape. -/
def isControl (c : Char) : Bool :=
  c.toNat = 127 || (c.toNat < 32 && c != '\t' && c != '\n')

/-- How often a character stands in a row at most; `run` is how often it just did. -/
def longestRun (q : Char) (run : Nat) : List Char → Nat
  | [] => run
  | c :: rest => if c = q then longestRun q (run + 1) rest else max run (longestRun q 0 rest)

/-- The hexadecimal digits of a control. -/
def controlDigits (n : Nat) : List Char :=
  ['0', '0', (Nat.digitChar (n / 16)).toUpper, (Nat.digitChar (n % 16)).toUpper]

/-- One character other than a double quote between double quotes. -/
def escape (multiline : Bool) (c : Char) : List Char :=
  if c = '\x08' then ['\\', 'b']
  else if c = '\t' then ['\\', 't']
  else if c = '\n' then if multiline then ['\n'] else ['\\', 'n']
  else if c = '\x0c' then ['\\', 'f']
  else if c = '\r' then ['\\', 'r']
  else if c = '\\' then ['\\', '\\']
  else if isControl c then '\\' :: 'u' :: controlDigits c.toNat
  else [c]

/-- How many double quotes may stand in a row between double quotes. -/
def quotesInRow (multiline : Bool) : Nat := if multiline then 2 else 0

/-- A text as it stands between double quotes, with at most `quotes` of its own at its start. -/
def escapeAll (multiline : Bool) (quotes : Nat) : List Char → List Char
  | [] => []
  | c :: rest =>
    if c = '"' then
      match quotes with
      | 0 => '\\' :: '"' :: escapeAll multiline (quotesInRow multiline) rest
      | quotes + 1 => '"' :: escapeAll multiline quotes rest
    else escape multiline c ++ escapeAll multiline (quotesInRow multiline) rest

/-- A line break before a text that has several lines. -/
def leadingBreak (cs : List Char) : List Char := if '\n' ∈ cs then ['\n'] else []

/-- A text between double quotes. -/
def basic (cs : List Char) : List Char := '"' :: escapeAll false 0 cs ++ ['"']

/-- A text between single quotes. -/
def literal (cs : List Char) : List Char := '\x27' :: cs ++ ['\x27']

/-- A text between three double quotes. -/
def multilineBasic (cs : List Char) : List Char :=
  ['"', '"', '"'] ++ leadingBreak cs ++ escapeAll true 2 cs ++ ['"', '"', '"']

/-- A text between three single quotes. -/
def multilineLiteral (cs : List Char) : List Char :=
  ['\x27', '\x27', '\x27'] ++ leadingBreak cs ++ cs ++ ['\x27', '\x27', '\x27']

/-- A text in the plainest way. -/
def quoted (cs : List Char) : List Char :=
  let oneLine := !cs.contains '\n'
  let controls := cs.any isControl
  let escapes := cs.contains '\\'
  let doubles := longestRun '"' 0 cs
  let singles := longestRun '\x27' 0 cs
  if !controls && !escapes && doubles = 0 && oneLine then basic cs
  else if !controls && singles = 0 && oneLine then literal cs
  else if !controls && !escapes && doubles ≤ 2 then multilineBasic cs
  else if !controls && singles ≤ 2 then multilineLiteral cs
  else if oneLine then basic cs
  else multilineBasic cs

/-! ## Files -/

/-- A value that can be written. -/
inductive Plain where
  | text (s : String)
  | number (n : Nat)
  | bool (b : Bool)
deriving DecidableEq, Repr

/-- Numbers have at most 63 bits. -/
def Plain.fits : Plain → Bool
  | .number n => n < Nat.pow 2 63
  | _ => true

/-- A value in a file. -/
def Plain.chars : Plain → List Char
  | .text s => quoted s.toList
  | .number n => Nat.toDigits 10 n
  | .bool true => ['t', 'r', 'u', 'e']
  | .bool false => ['f', 'a', 'l', 's', 'e']

/-- Names with their values, which a heading may precede. -/
abbrev Group := List (String × Plain)

/-- The lines of a group. -/
def groupChars (group : Group) : List Char :=
  group.flatMap fun (name, value) => name.toList ++ [' ', '=', ' '] ++ value.chars ++ ['\n']

/-- A heading with the lines below it. -/
def headedChars (name : String) (group : Group) : List Char :=
  '[' :: name.toList ++ [']', '\n'] ++ groupChars group

/-- Headed groups after other lines, each with a blank line before it unless it begins the file. -/
def appendGroups (written : List Char) : List (String × Group) → List Char
  | [] => written
  | (name, group) :: groups =>
    let gap := if written.isEmpty then [] else ['\n']
    appendGroups (written ++ gap ++ headedChars name group) groups

/-- A file, unless some number is too large for one. -/
def file? (opening : Group) (groups : List (String × Group)) : Option String :=
  if (opening ++ groups.flatMap (·.2)).all (·.2.fits) then
    some (String.ofList (appendGroups (groupChars opening) groups))
  else none

end SteeredActors.Toml
