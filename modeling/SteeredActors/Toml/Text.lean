import SteeredActors.Text.Digits

/-!
# Texts in settings files

Four ways to write a text: in double or in single quotes, on one line or on several. Backslashes
escape only between double quotes. Every reader takes what follows the opening quotes and gives the
text with what follows the closing ones.
-/

set_option autoImplicit false
set_option relaxedAutoImplicit false

namespace SteeredActors.Toml

open Text (hexValue?)

/-- A blank within a line. -/
def isBlank (c : Char) : Bool := c = ' ' || c = '\t'

/-- The text from its first character that is not blank. -/
def skipBlank (cs : List Char) : List Char := cs.dropWhile isBlank

/-- A character that may stand in a file as it is, within a line. -/
def isPlain (c : Char) : Bool := c = '\t' || (32 ≤ c.toNat && c.toNat != 127)

/-- What follows the end of a line, at which the text must stand. -/
def lineEnd? : List Char → Option (List Char)
  | [] => some []
  | '\n' :: rest => some rest
  | '\r' :: '\n' :: rest => some rest
  | _ => none

/-- The text stands at a line break, if blanks are not counted. -/
def breaksLine (cs : List Char) : Bool :=
  match skipBlank cs with
  | '\n' :: _ => true
  | '\r' :: '\n' :: _ => true
  | _ => false

/-- Skip a line break that follows opening quotes immediately. -/
def trimBreak : List Char → List Char
  | '\n' :: rest => rest
  | '\r' :: '\n' :: rest => rest
  | cs => cs

/-- The character that a short escape stands for. -/
def shortEscape? (c : Char) : Option Char :=
  if c = '"' then some '"'
  else if c = '\\' then some '\\'
  else if c = 'b' then some '\x08'
  else if c = 'f' then some '\x0c'
  else if c = 'n' then some '\n'
  else if c = 'r' then some '\r'
  else if c = 't' then some '\t'
  else none

/-- The number that hexadecimal digits write. -/
def hexNumber? (ds : List Char) : Option Nat :=
  ds.foldlM (fun n d => (hexValue? d).map (n * 16 + ·)) 0

/-- The character with a code point in hexadecimal. -/
def codePoint? (ds : List Char) : Option Char := do
  let code ← hexNumber? ds
  if code < 0xD800 ∨ (0xE000 ≤ code ∧ code < 0x110000) then some (Char.ofNat code) else none

/-- Put a character before a text that was read. -/
def before (c : Char) : Option (List Char × List Char) → Option (List Char × List Char) :=
  Option.map fun (s, rest) => (c :: s, rest)

/-- A text between double quotes, on one line. -/
def basicText? : List Char → Option (List Char × List Char)
  | [] => none
  | '"' :: rest => some ([], rest)
  | '\\' :: 'u' :: a :: b :: c :: d :: rest =>
    match codePoint? [a, b, c, d] with
    | some code => before code (basicText? rest)
    | none => none
  | '\\' :: 'U' :: a :: b :: c :: d :: e :: f :: g :: h :: rest =>
    match codePoint? [a, b, c, d, e, f, g, h] with
    | some code => before code (basicText? rest)
    | none => none
  | '\\' :: c :: rest =>
    match shortEscape? c with
    | some code => before code (basicText? rest)
    | none => none
  | c :: rest => if isPlain c then before c (basicText? rest) else none

/-- A text between single quotes, on one line. -/
def literalText? : List Char → Option (List Char × List Char)
  | [] => none
  | '\x27' :: rest => some ([], rest)
  | c :: rest => if isPlain c then before c (literalText? rest) else none

/-- A text between three double quotes, before the closing ones of which it may have two of its
own. While `skipping`, blanks and line breaks do not count: a backslash at the end of a line joins
it with the next line that has something else. -/
def multilineText? (skipping : Bool) : List Char → Option (List Char × List Char)
  | [] => none
  | '"' :: '"' :: '"' :: '"' :: '"' :: rest => some (['"', '"'], rest)
  | '"' :: '"' :: '"' :: '"' :: rest => some (['"'], rest)
  | '"' :: '"' :: '"' :: rest => some ([], rest)
  | '\\' :: 'u' :: a :: b :: c :: d :: rest =>
    match codePoint? [a, b, c, d] with
    | some code => before code (multilineText? false rest)
    | none => none
  | '\\' :: 'U' :: a :: b :: c :: d :: e :: f :: g :: h :: rest =>
    match codePoint? [a, b, c, d, e, f, g, h] with
    | some code => before code (multilineText? false rest)
    | none => none
  | '\\' :: c :: rest =>
    if breaksLine (c :: rest) then multilineText? true rest
    else
      match shortEscape? c with
      | some code => before code (multilineText? false rest)
      | none => none
  | '\r' :: '\n' :: rest =>
    if skipping then multilineText? true rest else before '\n' (multilineText? false rest)
  | c :: rest =>
    if skipping && (isBlank c || c = '\n') then multilineText? true rest
    else if isPlain c || c = '\n' then before c (multilineText? false rest)
    else none

/-- A text between three single quotes, before the closing ones of which it may have two of its
own. -/
def multilineLiteral? : List Char → Option (List Char × List Char)
  | [] => none
  | '\x27' :: '\x27' :: '\x27' :: '\x27' :: '\x27' :: rest => some (['\x27', '\x27'], rest)
  | '\x27' :: '\x27' :: '\x27' :: '\x27' :: rest => some (['\x27'], rest)
  | '\x27' :: '\x27' :: '\x27' :: rest => some ([], rest)
  | '\r' :: '\n' :: rest => before '\n' (multilineLiteral? rest)
  | c :: rest => if isPlain c || c = '\n' then before c (multilineLiteral? rest) else none

/-- A text in any of the four ways, with its opening quotes. -/
def text? : List Char → Option (List Char × List Char)
  | '"' :: '"' :: '"' :: rest => multilineText? false (trimBreak rest)
  | '"' :: rest => basicText? rest
  | '\x27' :: '\x27' :: '\x27' :: rest => multilineLiteral? (trimBreak rest)
  | '\x27' :: rest => literalText? rest
  | _ => none

end SteeredActors.Toml
