import SteeredActors.Binary64

/-!
# Tables

The data model of settings files: tables of named items, which nest. A table remembers how it came
to be, because that decides what later lines of its file may still add to it.
-/

set_option autoImplicit false
set_option relaxedAutoImplicit false

namespace SteeredActors.Toml

/-- How a table came to be. -/
inductive Origin where
  /-- It has a heading of its own. -/
  | heading
  /-- It lies on the way to a heading. -/
  | implied
  /-- It lies on the way to a dotted key. -/
  | dotted
  /-- It was written as a value. -/
  | inline
deriving DecidableEq, Repr

/-- What a name stands for. -/
inductive Item where
  | text (s : String)
  | integer (i : Int)
  | real (x : Binary64)
  | bool (b : Bool)
  /-- A date, a time or both, as it is printed. -/
  | date (s : String)
  | array (items : List Item)
  | table (origin : Origin) (entries : List (String × Item))
  /-- Tables that share one name, each begun by a heading in double brackets. -/
  | tables (elements : List (List (String × Item)))

/-- The named items of a table. -/
abbrev Entries := List (String × Item)

/-- Put an item in the place of the one with its name, or after the others if there is none. -/
def Entries.put (name : String) (item : Item) : Entries → Entries
  | [] => [(name, item)]
  | (other, old) :: rest =>
    if other = name then (name, item) :: rest else (other, old) :: put name item rest

/-- Add an item under a name that is not taken. -/
def Entries.add? (name : String) (item : Item) (entries : Entries) : Option Entries :=
  match entries.lookup name with
  | none => some (entries.put name item)
  | some _ => none

end SteeredActors.Toml
