import SteeredActors.Toml.Basic

/-!
# Documents

What the lines of a settings file say, before and after they are put together to one table. A name
is given a value once, and a table gets its heading once.
-/

set_option autoImplicit false
set_option relaxedAutoImplicit false

namespace SteeredActors.Toml

/-- A name with the names of the tables that enclose it, outermost first. -/
structure Key where
  path : List String
  name : String
deriving DecidableEq, Repr

/-- A line that gives a key its value. -/
structure Pair where
  key : Key
  item : Item

/-- A line that begins a table. -/
structure Heading where
  key : Key
  /-- The table is one of several with this key. -/
  repeated : Bool
deriving DecidableEq, Repr

/-- A line that is neither blank nor a comment. -/
inductive Line where
  | heading (heading : Heading)
  | pair (pair : Pair)

/-- A heading with the lines below it. -/
structure Section where
  heading : Heading
  pairs : List Pair

/-- The lines of a file, those before the first heading apart. -/
structure Document where
  opening : List Pair := []
  sections : List Section := []

/-- The document of some lines. -/
def Document.ofLines : List Line → Document
  | [] => {}
  | .pair pair :: lines =>
    let document := ofLines lines
    { document with opening := pair :: document.opening }
  | .heading heading :: lines =>
    let document := ofLines lines
    { sections := ⟨heading, document.opening⟩ :: document.sections }

/-- Change the last item of a list. -/
def updateLast? {α : Type} (f : α → Option α) : List α → Option (List α)
  | [] => none
  | [last] => (f last).map ([·])
  | first :: rest => (updateLast? f rest).map (first :: ·)

/-! ## Pairs -/

/-- Add an item below a table with the given origin. A dotted key reaches into tables that have no
heading, and the table that gets the item is one that dotted keys made. -/
def addBelow? (name : String) (item : Item) : List String → Origin → Entries → Option Entries
  | [], origin, entries => if origin = .dotted then entries.add? name item else none
  | key :: path, _, entries =>
    match entries.lookup key with
    | none =>
      (addBelow? name item path .dotted []).map fun inner =>
        entries.put key (.table .dotted inner)
    | some (.table origin inner) =>
      if origin = .implied ∨ origin = .dotted then
        (addBelow? name item path origin inner).map fun inner =>
          entries.put key (.table origin inner)
      else none
    | some (.tables elements) =>
      (updateLast? (addBelow? name item path .heading) elements).map fun elements =>
        entries.put key (.tables elements)
    | some _ => none

/-- Add what a pair says to the table it stands in. -/
def addPair? (entries : Entries) (pair : Pair) : Option Entries :=
  match pair.key.path with
  | [] => entries.add? pair.key.name pair.item
  | path => addBelow? pair.key.name pair.item path .heading entries

/-- Add what pairs say, in order. -/
def addPairs? (entries : Entries) (pairs : List Pair) : Option Entries :=
  pairs.foldlM addPair? entries

/-! ## Sections -/

/-- Change the item of a key. Tables on the way that do not exist are made, and of tables that
share a name the last one is meant. -/
def changeAt? (name : String) (f : Option Item → Option Item) :
    List String → Entries → Option Entries
  | [], entries => (f (entries.lookup name)).map (entries.put name)
  | key :: path, entries =>
    match entries.lookup key with
    | none =>
      (changeAt? name f path []).map fun inner => entries.put key (.table .implied inner)
    | some (.table .inline _) => none
    | some (.table origin inner) =>
      (changeAt? name f path inner).map fun inner => entries.put key (.table origin inner)
    | some (.tables elements) =>
      (updateLast? (changeAt? name f path) elements).map fun elements =>
        entries.put key (.tables elements)
    | some _ => none

/-- Add a section to the whole table. Its heading is new, or repeated as before, or that of a table
which so far only lay on the way to others. -/
def addSection? (entries : Entries) (s : Section) : Option Entries :=
  let change : Option Item → Option Item := fun old =>
    match s.heading.repeated, old with
    | false, none => (addPairs? [] s.pairs).map (.table .heading)
    | false, some (.table .implied inner) => (addPairs? inner s.pairs).map (.table .heading)
    | true, none => (addPairs? [] s.pairs).map fun element => .tables [element]
    | true, some (.tables elements) =>
      (addPairs? [] s.pairs).map fun element => .tables (elements ++ [element])
    | _, _ => none
  changeAt? s.heading.key.name change s.heading.key.path entries

/-- The table that a document describes, if it contradicts itself nowhere. -/
def Document.table? (d : Document) : Option Entries := do
  d.sections.foldlM addSection? (← addPairs? [] d.opening)

end SteeredActors.Toml
