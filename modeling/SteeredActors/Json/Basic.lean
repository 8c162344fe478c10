/-!
# Interchange text

The data model of the text format in which traces, identities and bug reports are stored. Members
of an object keep their order and may repeat, so that a reader can refuse repeated fields.
-/

set_option autoImplicit false
set_option relaxedAutoImplicit false

namespace SteeredActors

/-- A document or a part of one. -/
inductive Json where
  | null
  | bool (b : Bool)
  /-- A number written with digits only. -/
  | natural (n : Nat)
  /-- A number with a sign, a fraction or an exponent. -/
  | otherNumber
  | text (s : String)
  /-- A text one of whose escapes is half of a surrogate pair. -/
  | unpairedText
  | list (items : List Json)
  | object (members : List (String × Json))
deriving Repr, Inhabited

namespace Json

/-- The members written under a name. -/
def membersNamed (name : String) (members : List (String × Json)) : List Json :=
  (members.filter (·.1 == name)).map (·.2)

/-- The fields of a record, in the order of `names`, each present at most once. A record is written
as an object, which may have other members, or as the list of exactly its fields. -/
def fields? (names : List String) : Json → Option (List (Option Json))
  | .object members =>
    names.mapM fun name =>
      match membersNamed name members with
      | [] => some none
      | [value] => some (some value)
      | _ => none
  | .list items => if items.length = names.length then some (items.map some) else none
  | _ => none

/-- A number of at most 64 bits. -/
def word? (bound : Nat) : Json → Option Nat
  | .natural n => if n ≤ bound then some n else none
  | _ => none

/-- A text. -/
def text? : Json → Option String
  | .text s => some s
  | _ => none

/-- The name of a constant, written as a text or as the only member of an object with content
`null`. -/
def constant? : Json → Option String
  | .text s => some s
  | .object [(name, .null)] => some name
  | _ => none

end Json

end SteeredActors
