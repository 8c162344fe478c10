import SteeredActors.Toml.Document
import SteeredActors.Toml.Number
import SteeredActors.Toml.Text

/-!
# Reading settings files

A file is read line by line: headings in brackets, keys with their values, comments. Only texts in
triple quotes and arrays go on over several lines. Keys and values nest less than eighty deep.
-/

set_option autoImplicit false
set_option relaxedAutoImplicit false

namespace SteeredActors.Toml

open Text (isDigit)

/-- How deep arrays and inline tables may nest, and how many parts a key may have. -/
def maxDepth : Nat := 79

/-! ## Blanks and comments -/

/-- The end of the line in which a comment stands. -/
def skipComment? : List Char → Option (List Char)
  | [] => some []
  | '\n' :: rest => some ('\n' :: rest)
  | '\r' :: '\n' :: rest => some ('\n' :: rest)
  | c :: rest => if isPlain c then skipComment? rest else none

/-- The next line, if the rest of this one is blank but for a comment. -/
def restOfLine? (cs : List Char) : Option (List Char) :=
  match skipBlank cs with
  | '#' :: rest => skipComment? rest >>= lineEnd?
  | rest => lineEnd? rest

/-- Skip blanks, line breaks and comments. The flag tells whether the text stands in a comment. -/
def skipLines (comment : Bool) : List Char → List Char
  | [] => []
  | '\n' :: rest => skipLines false rest
  | '\r' :: '\n' :: rest => skipLines false rest
  | c :: rest =>
    if comment then if isPlain c then skipLines true rest else c :: rest
    else if isBlank c then skipLines false rest
    else if c = '#' then skipLines true rest
    else c :: rest

/-! ## Keys -/

/-- A character of a key without quotes. -/
def isBare (c : Char) : Bool := c.isAlphanum || c = '_' || c = '-'

/-- One part of a key. -/
def keyPart? : List Char → Option (List Char × List Char)
  | '"' :: rest => basicText? rest
  | '\x27' :: rest => literalText? rest
  | cs =>
    match cs.takeWhile isBare with
    | [] => none
    | part => some (part, cs.dropWhile isBare)

/-- A key of at most some number of parts, with blanks around them. -/
def key? : Nat → List Char → Option (Key × List Char)
  | 0, _ => none
  | parts + 1, cs => do
    let (part, rest) ← keyPart? (skipBlank cs)
    match skipBlank rest with
    | '.' :: rest =>
      let (key, rest) ← key? parts rest
      return (⟨String.ofList part :: key.path, key.name⟩, rest)
    | rest => return (⟨[], String.ofList part⟩, rest)

/-! ## Values -/

/-- A number, a date or a time. -/
def number? (cs : List Char) : Option (Item × List Char) :=
  match moment? cs with
  | some (moment, rest) => some (.date (String.ofList moment), rest)
  | none =>
    match real? cs with
    | some (x, rest) => some (.real x, rest)
    | none => (integer? cs).map fun (i, rest) => (.integer i, rest)

/-- A value that holds no others. -/
def simple? : List Char → Option (Item × List Char)
  | 't' :: 'r' :: 'u' :: 'e' :: rest => some (.bool true, rest)
  | 'f' :: 'a' :: 'l' :: 's' :: 'e' :: rest => some (.bool false, rest)
  | cs =>
    match text? cs with
    | some (s, rest) => some (.text (String.ofList s), rest)
    | none => number? cs

/-- The items of an array, with its closing bracket. The fuel bounds their number. -/
def arrayItems? (value? : List Char → Option (Item × List Char)) :
    Nat → List Char → Option (List Item × List Char)
  | 0, _ => none
  | fuel + 1, cs =>
    match skipLines false cs with
    | ']' :: rest => some ([], rest)
    | cs => do
      let (item, rest) ← value? cs
      match skipLines false rest with
      | ']' :: rest => return ([item], rest)
      | ',' :: rest =>
        let (items, rest) ← arrayItems? value? fuel rest
        return (item :: items, rest)
      | _ => none

/-- A key with its value. -/
def pair? (value? : List Char → Option (Item × List Char)) (cs : List Char) :
    Option (Pair × List Char) := do
  let (key, rest) ← key? maxDepth cs
  let (item, rest) ← value? (skipBlank (← past? '=' rest))
  return (⟨key, item⟩, rest)

/-- At least one pair of an inline table, with the closing brace. The fuel bounds their number. -/
def inlinePairs? (value? : List Char → Option (Item × List Char)) :
    Nat → List Char → Option (List Pair × List Char)
  | 0, _ => none
  | fuel + 1, cs => do
    let (pair, rest) ← pair? value? cs
    match skipBlank rest with
    | '\x7d' :: rest => return ([pair], rest)
    | ',' :: rest =>
      let (pairs, rest) ← inlinePairs? value? fuel rest
      return (pair :: pairs, rest)
    | _ => none

/-- A value in which arrays and inline tables nest at most some number deep. -/
def value? : Nat → List Char → Option (Item × List Char)
  | depth + 1, '[' :: rest =>
    (arrayItems? (value? depth) (rest.length + 1) rest).map fun (items, rest) =>
      (.array items, rest)
  | depth + 1, '\x7b' :: rest =>
    match skipBlank rest with
    | '\x7d' :: rest => some (.table .inline [], rest)
    | rest => do
      let (pairs, rest) ← inlinePairs? (value? depth) (rest.length + 1) rest
      return (.table .inline (← addPairs? [] pairs), rest)
  | _, cs => simple? cs

/-! ## Lines -/

/-- A heading after its opening brackets. -/
def heading? (repeated : Bool) (cs : List Char) : Option (Heading × List Char) := do
  let (key, rest) ← key? maxDepth cs
  let rest ← past? ']' rest
  return (⟨key, repeated⟩, ← if repeated then past? ']' rest else some rest)

/-- A line that is not blank, but for a comment after it. -/
def filledLine? : List Char → Option (Line × List Char)
  | '[' :: '[' :: rest => (heading? true rest).map fun (heading, rest) => (.heading heading, rest)
  | '[' :: rest => (heading? false rest).map fun (heading, rest) => (.heading heading, rest)
  | cs => (pair? (value? maxDepth) cs).map fun (pair, rest) => (.pair pair, rest)

/-- The lines of a text that say something. The fuel bounds the number of all lines. -/
def lines? : Nat → List Char → Option (List Line)
  | _, [] => some []
  | 0, _ => none
  | fuel + 1, cs =>
    match restOfLine? cs with
    | some rest => lines? fuel rest
    | none => do
      let (line, rest) ← filledLine? (skipBlank cs)
      return line :: (← lines? fuel (← restOfLine? rest))

/-- The text without the mark that may begin a file. -/
def trimMark : List Char → List Char
  | '\uFEFF' :: rest => rest
  | cs => cs

/-- The document that a text writes, if it writes one. -/
def document? (s : String) : Option Document :=
  let cs := trimMark s.toList
  (lines? cs.length cs).map Document.ofLines

/-- The table that a text writes, if it writes one. -/
def parse? (s : String) : Option Entries := document? s >>= Document.table?

end SteeredActors.Toml
