import SteeredActors.Json.Printer
import SteeredActors.Json.Reader
import SteeredActors.Proofs.Text.Digits

/-!
# The grammar of interchange text

A document is written by its tokens with any blanks between them. Both layouts follow that grammar, and
the reader finds in every text that does the document that it writes, whatever comes after it.
-/

set_option autoImplicit false
set_option relaxedAutoImplicit false

namespace SteeredActors.Json

open Text (isDigit NoDigit digitsValue hexValue? hexValue?_digitChar)

/-- Nothing but blanks. -/
def Blank (cs : List Char) : Prop := ∀ c ∈ cs, isBlank c = true

mutual

/-- A text writes a document, without blanks around it. -/
inductive Writes : Json → List Char → Prop where
  | null : Writes .null ['n', 'u', 'l', 'l']
  | true : Writes (.bool true) ['t', 'r', 'u', 'e']
  | false : Writes (.bool false) ['f', 'a', 'l', 's', 'e']
  | natural (n : Nat) : Writes (.natural n) (Nat.toDigits 10 n)
  | otherNumber : Writes .otherNumber ['-', '0']
  | text (s : String) : Writes (.text s) (quoted s)
  | unpairedText : Writes .unpairedText ['"', '\\', 'u', 'd', '8', '0', '0', '"']
  | nothing : Writes (.list []) ['[', ']']
  | list {items : List Json} {cs : List Char} (body : WritesItems items cs) :
      Writes (.list items) ('[' :: cs)
  | empty : Writes (.object []) ['\x7b', '\x7d']
  | object {members : List (String × Json)} {cs : List Char} (body : WritesMembers members cs) :
      Writes (.object members) ('\x7b' :: cs)

/-- A text writes at least one item of a list, and the closing bracket. -/
inductive WritesItems : List Json → List Char → Prop where
  | last {item : Json} {left cs right : List Char} (before : Blank left) (written : Writes item cs)
      (after : Blank right) : WritesItems [item] (left ++ (cs ++ (right ++ [']'])))
  | more {item : Json} {items : List Json} {left cs right rest : List Char} (before : Blank left)
      (written : Writes item cs) (after : Blank right) (others : WritesItems items rest) :
      WritesItems (item :: items) (left ++ (cs ++ (right ++ ',' :: rest)))

/-- A text writes at least one member of an object, and the closing brace. -/
inductive WritesMembers : List (String × Json) → List Char → Prop where
  | last (name : String) {value : Json} {left middle cs right : List Char} (before : Blank left)
      (between : Blank middle) (written : Writes value cs) (after : Blank right) :
      WritesMembers [(name, value)]
        (left ++ (quoted name ++ ':' :: (middle ++ (cs ++ (right ++ ['\x7d'])))))
  | more (name : String) {value : Json} {members : List (String × Json)}
      {left middle cs right rest : List Char} (before : Blank left) (between : Blank middle)
      (written : Writes value cs) (after : Blank right) (others : WritesMembers members rest) :
      WritesMembers ((name, value) :: members)
        (left ++ (quoted name ++ ':' :: (middle ++ (cs ++ (right ++ ',' :: rest)))))

end

/-! ## Blanks -/

theorem blank_nil : Blank [] := List.forall_mem_nil _

theorem blank_space : Blank [' '] := by simp [Blank, isBlank]

theorem blank_newLine (depth : Nat) : Blank (newLine depth) := by
  intro c mem
  rcases List.mem_cons.1 mem with rfl | space
  · rfl
  · rw [List.eq_of_mem_replicate space]
    rfl

/-- Blanks are skipped up to the first character that is none. -/
theorem skipBlank_append {left : List Char} (blank : Blank left) (cs : List Char) :
    skipBlank (left ++ cs) = skipBlank cs :=
  List.dropWhile_append_of_pos blank

theorem skipBlank_of_head {c : Char} {cs : List Char} (solid : isBlank c = false) :
    skipBlank (c :: cs) = c :: cs := by
  simp [skipBlank, solid]

/-! ## Both layouts -/

mutual

/-- The layout without any space follows the grammar. -/
theorem writes_compact : ∀ j : Json, Writes j (compactChars j)
  | .null => by simpa [compactChars] using Writes.null
  | .bool true => by simpa [compactChars] using Writes.true
  | .bool false => by simpa [compactChars] using Writes.false
  | .natural n => by simpa [compactChars] using Writes.natural n
  | .otherNumber => by simpa [compactChars] using Writes.otherNumber
  | .text s => by simpa [compactChars] using Writes.text s
  | .unpairedText => by simpa [compactChars] using Writes.unpairedText
  | .list [] => by simpa [compactChars] using Writes.nothing
  | .list (item :: items) => by
    simpa [compactChars] using Writes.list (writes_compactItems items (writes_compact item))
  | .object [] => by simpa [compactChars] using Writes.empty
  | .object ((name, value) :: members) => by
    simpa [compactChars] using
      Writes.object (writes_compactMembers members name (writes_compact value))

theorem writes_compactItems : ∀ (items : List Json) {item : Json} {cs : List Char},
    Writes item cs → WritesItems (item :: items) (cs ++ compactItems items)
  | [], _, _, written => by
    simpa [compactItems] using WritesItems.last blank_nil written blank_nil
  | next :: items, _, _, written => by
    simpa [compactItems] using
      WritesItems.more blank_nil written blank_nil (writes_compactItems items (writes_compact next))

theorem writes_compactMembers : ∀ (members : List (String × Json)) (name : String) {value : Json}
    {cs : List Char}, Writes value cs →
      WritesMembers ((name, value) :: members) (quoted name ++ ':' :: (cs ++ compactMembers members))
  | [], name, _, _, written => by
    simpa [compactMembers] using WritesMembers.last name blank_nil blank_nil written blank_nil
  | (next, value) :: members, name, _, _, written => by
    simpa [compactMembers] using
      WritesMembers.more name blank_nil blank_nil written blank_nil
        (writes_compactMembers members next (writes_compact value))

end

mutual

/-- So does the layout with one item per line, at every depth. -/
theorem writes_pretty (depth : Nat) : ∀ j : Json, Writes j (prettyChars depth j)
  | .null => by simpa only [prettyChars] using writes_compact .null
  | .bool b => by simpa only [prettyChars] using writes_compact (.bool b)
  | .natural n => by simpa only [prettyChars] using writes_compact (.natural n)
  | .otherNumber => by simpa only [prettyChars] using writes_compact .otherNumber
  | .text s => by simpa only [prettyChars] using writes_compact (.text s)
  | .unpairedText => by simpa only [prettyChars] using writes_compact .unpairedText
  | .list [] => by simpa only [prettyChars] using writes_compact (.list [])
  | .list (item :: items) => by
    simpa [prettyChars] using
      Writes.list (writes_prettyItems depth items (writes_pretty (depth + 1) item))
  | .object [] => by simpa only [prettyChars] using writes_compact (.object [])
  | .object ((name, value) :: members) => by
    simpa [prettyChars] using
      Writes.object (writes_prettyMembers depth members name (writes_pretty (depth + 1) value))

theorem writes_prettyItems (depth : Nat) : ∀ (items : List Json) {item : Json} {cs : List Char},
    Writes item cs → WritesItems (item :: items) (newLine (depth + 1) ++ (cs ++ prettyItems depth items))
  | [], _, _, written => by
    simpa [prettyItems] using
      WritesItems.last (blank_newLine (depth + 1)) written (blank_newLine depth)
  | next :: items, _, _, written => by
    simpa [prettyItems] using
      WritesItems.more (blank_newLine (depth + 1)) written blank_nil
        (writes_prettyItems depth items (writes_pretty (depth + 1) next))

theorem writes_prettyMembers (depth : Nat) : ∀ (members : List (String × Json)) (name : String)
    {value : Json} {cs : List Char}, Writes value cs →
      WritesMembers ((name, value) :: members)
        (newLine (depth + 1) ++ (quoted name ++ ':' :: ' ' :: (cs ++ prettyMembers depth members)))
  | [], name, _, _, written => by
    simpa [prettyMembers] using
      WritesMembers.last name (blank_newLine (depth + 1)) blank_space written (blank_newLine depth)
  | (next, value) :: members, name, _, _, written => by
    simpa [prettyMembers] using
      WritesMembers.more name (blank_newLine (depth + 1)) blank_space written blank_nil
        (writes_prettyMembers depth members next (writes_pretty (depth + 1) value))

end

end SteeredActors.Json
