/-!
# Log filters

A filter is a list of directives separated by commas. A directive names a level for everything, or a
target or a span, or two of these in a row, with an optional level after an equals sign.
-/

set_option autoImplicit false
set_option relaxedAutoImplicit false

namespace SteeredActors.LogFilter

/-- The names of levels, which may also be written in upper case. -/
def levels : List String :=
  ["trace", "debug", "info", "warn", "error", "off", "0", "1", "2", "3", "4", "5"]

/-- The text names a level. -/
def isLevel (cs : List Char) : Bool := levels.contains (String.ofList (cs.map Char.toLower))

/-- A character of a target. Letters outside the first 128 characters count as such. -/
def isTargetChar (c : Char) : Bool :=
  c.isAlphanum || c = '_' || c = ':' || c = '-' || 128 ≤ c.toNat

/-- What follows a target or a span in brackets at the start of the text. -/
def skipItem? (cs : List Char) : Option (List Char) :=
  match cs with
  | [] => none
  | c :: rest =>
    if c = '[' then
      match rest.dropWhile (· != ']') with
      | _ :: more => some more
      | [] => none
    else if isTargetChar c then some (rest.dropWhile isTargetChar)
    else none

/-- The rest of a directive after its items: nothing, or an equals sign with an optional level. -/
def isLevelPart : List Char → Bool
  | [] => true
  | '=' :: cs => cs.isEmpty || isLevel cs
  | _ => false

/-- The text is a directive. -/
def isDirective (cs : List Char) : Bool :=
  isLevel cs
    || (match skipItem? cs with
      | some rest =>
        isLevelPart rest
          || (match skipItem? rest with
            | some rest => isLevelPart rest
            | none => false)
      | none => false)

/-- The parts of a text between commas. -/
def parts : List Char → List (List Char)
  | [] => [[]]
  | c :: cs =>
    match parts cs with
    | [] => [[c]]
    | part :: more => if c = ',' then [] :: part :: more else (c :: part) :: more

/-- The text is a filter; empty parts are skipped. -/
def isValid (s : String) : Bool := (parts s.toList).all fun part => part.isEmpty || isDirective part

/-- The text for a filter that cannot be used. -/
def invalidMessage (s : String) : String := s!"Invalid log filter '{s}'"

end SteeredActors.LogFilter
