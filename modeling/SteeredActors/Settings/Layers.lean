import SteeredActors.Text.Digits
import SteeredActors.Toml.Basic

/-!
# Layers of settings

Settings come from a file and from the environment, which overrides it value by value. Names are
the same in any case. A name at the top of a file and a name from the environment may be a path
into the tables below.
-/

set_option autoImplicit false
set_option relaxedAutoImplicit false

namespace SteeredActors

open Text (isDigit digitsValue)

/-- What a name is set to, not yet read as a setting. -/
inductive RawSetting where
  | text (s : String)
  | integer (i : Int)
  | real (x : Binary64)
  | bool (b : Bool)
  /-- No setting is an array, so what it holds does not matter. -/
  | array
  | table (entries : List (String × RawSetting))

namespace RawSetting

/-! ## Merging -/

/-- What the names in a table are set to; nothing else holds any. -/
def entries : RawSetting → List (String × RawSetting)
  | .table entries => entries
  | _ => []

/-- Change what a name is set to. -/
def alter (name : String) (f : Option RawSetting → RawSetting) :
    List (String × RawSetting) → List (String × RawSetting)
  | [] => [(name, f none)]
  | (other, old) :: rest =>
    if other = name then (name, f (some old)) :: rest else (other, old) :: alter name f rest

/-- Change what a name is set to in something that becomes a table if it is none. -/
def change (name : String) (f : Option RawSetting → RawSetting) (target : RawSetting) :
    RawSetting :=
  .table (alter name.toLower f target.entries)

mutual

/-- Set a name. A table is merged with what is there, anything else replaces it. -/
def put (name : String) (target : RawSetting) : RawSetting → RawSetting
  | .table incoming => change name (fun old => putAll (old.getD (.table [])) incoming) target
  | .text s => change name (fun _ => .text s) target
  | .integer i => change name (fun _ => .integer i) target
  | .real x => change name (fun _ => .real x) target
  | .bool b => change name (fun _ => .bool b) target
  | .array => change name (fun _ => .array) target

/-- Set several names, in order. -/
def putAll (target : RawSetting) : List (String × RawSetting) → RawSetting
  | [] => target
  | (name, value) :: rest => putAll (put name target value) rest

end

/-! ## Paths -/

/-- One step into a setting. -/
inductive Step where
  | name (name : String)
  | index
deriving DecidableEq, Repr

/-- A character of a name in a path. -/
def isPathChar (c : Char) : Bool := c.isAlphanum || c = ' ' || c = '_' || c = '-'

/-- A name at the start of a path. -/
def pathName? (cs : List Char) : Option (String × List Char) :=
  match cs.takeWhile isPathChar with
  | [] => none
  | name => some (String.ofList name, cs.dropWhile isPathChar)

/-- An index after its opening bracket, with the closing one. -/
def pathIndex? (cs : List Char) : Option (List Char) :=
  let isSpace (c : Char) : Bool := c = ' ' || c = '\t'
  let (negative, digits) :=
    match cs.dropWhile isSpace with
    | '-' :: rest => (true, rest)
    | rest => (false, rest)
  let bound := if negative then Nat.pow 2 63 else Nat.pow 2 63 - 1
  match digits.takeWhile isDigit with
  | [] => none
  | ds =>
    if bound < digitsValue ds then none
    else
      match (digits.dropWhile isDigit).dropWhile isSpace with
      | ']' :: rest => some rest
      | _ => none

/-- The steps after the first one. The fuel bounds their number. -/
def pathSteps? : Nat → List Char → Option (List Step)
  | _, [] => some []
  | fuel + 1, '.' :: rest => do
    let (name, rest) ← pathName? rest
    return .name name :: (← pathSteps? fuel rest)
  | fuel + 1, '[' :: rest => do
    return .index :: (← pathSteps? fuel (← pathIndex? rest))
  | _, _ => none

/-- A path that begins with a name. -/
def path? (s : String) : Option (String × List Step) := do
  let (name, rest) ← pathName? s.toList
  return (name, ← pathSteps? rest.length rest)

/-- Set what a path leads to. A step takes what it needs by force: a name makes a table, an index
makes an array. -/
def putBelow (name : String) (value : RawSetting) : List Step → RawSetting → RawSetting
  | [], target => put name target value
  | .name inner :: steps, target =>
    change name (fun old => putBelow inner value steps (old.getD (.table []))) target
  | .index :: _, target => change name (fun _ => .array) target

/-- Set a name that may be a path. One that is no path is a plain name. -/
def putPath (target : RawSetting) (name : String) (value : RawSetting) : RawSetting :=
  match path? name with
  | some (first, steps) => putBelow first value steps target
  | none => put name target value

/-! ## Files -/

mutual

/-- What an item of a file sets a name to. -/
def ofItem : Toml.Item → RawSetting
  | .text s => .text s
  | .date s => .text s
  | .integer i => .integer i
  | .real x => .real x
  | .bool b => .bool b
  | .array _ => .array
  | .tables _ => .array
  | .table _ entries => .table (ofEntries entries)

/-- What the items of a table set its names to. -/
def ofEntries : List (String × Toml.Item) → List (String × RawSetting)
  | [] => []
  | (name, item) :: rest => (name, ofItem item) :: ofEntries rest

end

/-- Put a file over other settings. -/
def overlayFile (target : RawSetting) (entries : Toml.Entries) : RawSetting :=
  (ofEntries entries).foldl (fun target (name, value) => putPath target name value) target

end RawSetting

end SteeredActors
