import Mathlib.Data.List.DropRight
import Mathlib.Tactic.SplitIfs
import SteeredActors.Proofs.Json.Grammar

/-!
# Reading what follows the grammar

The reader finds in every text of the grammar the document that it writes, and stops where that text
ends. So each layout of a document is read back as that document.
-/

set_option autoImplicit false
set_option relaxedAutoImplicit false

namespace SteeredActors.Json

open Text (isDigit NoDigit digitsValue hexValue? hexValue?_digitChar)

/-! ## Texts -/

theorem textBody_quote (rest : List Char) : textBody none ('"' :: rest) = some (some [], rest) := by
  simp [textBody, breakIf]

theorem textBody_short {c e : Char} (short : shortEscape? c = some e) (cs : List Char) :
    textBody none ('\\' :: c :: cs) = (textBody none cs).map (consText e) := by
  have letter : c ≠ 'u' := by
    rintro rfl
    simp [shortEscape?] at short
  simp [textBody, letter, short, breakIf, Function.comp_def]

theorem hexWord?_control {n : Nat} (control : n < 32) :
    hexWord? '0' '0' (hexDigit (n / 16)) (hexDigit (n % 16)) = some n := by
  have zero : hexValue? '0' = some 0 := hexValue?_digitChar (n := 0) (by decide)
  simp only [hexWord?, hexDigit, zero, hexValue?_digitChar (show n / 16 < 16 by omega),
    hexValue?_digitChar (show n % 16 < 16 by omega), Option.bind_eq_bind, Option.bind_some,
    Option.pure_def, Option.some.injEq]
  omega

theorem textBody_control {c : Char} (control : c.toNat < 32) (cs : List Char) :
    textBody none
        ('\\' :: 'u' :: '0' :: '0' :: hexDigit (c.toNat / 16) :: hexDigit (c.toNat % 16) :: cs)
      = (textBody none cs).map (consText c) := by
  have leading : isLeading c.toNat = false := by simp [isLeading]; omega
  have trailing : isTrailing c.toNat = false := by simp [isTrailing]; omega
  simp [textBody, hexWord?_control control, leading, trailing, Char.ofNat_toNat, breakIf,
    Function.comp_def]

theorem textBody_plain {c : Char} (quote : c ≠ '"') (backslash : c ≠ '\\')
    (shown : ¬ c.toNat < 32) (cs : List Char) :
    textBody none (c :: cs) = (textBody none cs).map (consText c) := by
  simp [textBody, backslash, shown, breakIf, Function.comp_def]

/-- Whichever way a character is escaped, it is read as itself. -/
theorem textBody_escape (c : Char) (cs : List Char) :
    textBody none (escape c ++ cs) = (textBody none cs).map (consText c) := by
  unfold escape
  split_ifs with quote backslash backspace feed line ret tab control
  · exact textBody_short (by simp [shortEscape?, quote]) cs
  · exact textBody_short (by simp [shortEscape?, backslash]) cs
  · exact textBody_short (by simp [shortEscape?, backspace]) cs
  · exact textBody_short (by simp [shortEscape?, feed]) cs
  · exact textBody_short (by simp [shortEscape?, line]) cs
  · exact textBody_short (by simp [shortEscape?, ret]) cs
  · exact textBody_short (by simp [shortEscape?, tab]) cs
  · exact textBody_control control cs
  · exact textBody_plain quote backslash control cs

theorem textBody_flatMap_escape (s rest : List Char) :
    textBody none (s.flatMap escape ++ '"' :: rest) = some (some s, rest) := by
  induction s with
  | nil => exact textBody_quote rest
  | cons c s ih => simp [textBody_escape, ih, consText]

/-! ## Numbers -/

/-- A character that ends a number. -/
def isStop (c : Char) : Bool := isBlank c || c = ',' || c = ']' || c = '\x7d'

/-- What follows a value does not go on with it. -/
def Ends (rest : List Char) : Prop := ∀ c ∈ rest.head?, isStop c = true

theorem ends_nil : Ends [] := by simp [Ends]

theorem ends_append {right : List Char} (blank : Blank right) {c : Char} (stop : isStop c = true)
    (rest : List Char) : Ends (right ++ c :: rest) := by
  cases right with
  | nil => simpa [Ends] using stop
  | cons b right => simp [Ends, isStop, blank b List.mem_cons_self]

theorem isDigit_of_isStop {c : Char} (stop : isStop c = true) : isDigit c = false := by
  simp only [isStop, isBlank, Bool.or_eq_true, decide_eq_true_eq] at stop
  rcases stop with (((((rfl | rfl) | rfl) | rfl) | rfl) | rfl) | rfl <;> decide

theorem Ends.noDigit {rest : List Char} (ends : Ends rest) : NoDigit rest :=
  fun c head => isDigit_of_isStop (ends c head)

theorem wholePart?_toDigits {rest : List Char} (ends : NoDigit rest) (n : Nat) :
    wholePart? (Nat.toDigits 10 n ++ rest) = some (Nat.toDigits 10 n, rest) := by
  unfold wholePart?
  rw [Text.takeWhile_toDigits ends, Text.dropWhile_toDigits ends]
  split
  · next none => exact absurd none Nat.toDigits_ne_nil
  · next zero => rw [zero]
  · next ds several zero =>
    rcases Nat.eq_zero_or_pos n with rfl | positive
    · exact absurd (zero.symm.trans Text.toDigits_zero) (by simpa using several)
    · exact absurd (by rw [zero]; rfl) (Text.head?_toDigits positive)
  · rfl

theorem skipFraction?_of_ends {rest : List Char} (ends : Ends rest) :
    skipFraction? rest = some (false, rest) := by
  unfold skipFraction?
  split
  · exact absurd (ends '.' rfl) (by decide)
  · rfl

theorem skipExponent?_of_ends {rest : List Char} (ends : Ends rest) :
    skipExponent? rest = some (false, rest) := by
  unfold skipExponent?
  split
  · next c _ =>
    have stop := ends c rfl
    have letter : ¬ ((c = 'e' || c = 'E') = true) := by
      simp only [Bool.or_eq_true, decide_eq_true_eq]
      rintro (rfl | rfl) <;> exact absurd stop (by decide)
    rw [if_neg letter]
  · rfl

theorem unsigned?_toDigits {rest : List Char} (ends : Ends rest) (n : Nat) :
    unsigned? (Nat.toDigits 10 n ++ rest) = some (.natural n, rest) := by
  simp [unsigned?, wholePart?_toDigits ends.noDigit, skipFraction?_of_ends ends,
    skipExponent?_of_ends ends, Text.digitsValue_toDigits]

/-- A value that begins with a digit is a number. -/
theorem value?_of_isDigit {d : Char} (digit : isDigit d = true) (fuel : Nat) (cs : List Char) :
    value? (fuel + 1) (d :: cs) = unsigned? (d :: cs) := by
  have no := fun c => Text.ne_of_isDigit (c := c) digit
  have number : number? (d :: cs) = unsigned? (d :: cs) := by
    simp [number?, no '-' (by decide)]
  rw [← number, value?]
  all_goals
    intro tail same
    exact no _ (by decide) (List.cons.inj same).1

theorem value?_toDigits {rest : List Char} (ends : Ends rest) (fuel n : Nat) :
    value? (fuel + 1) (Nat.toDigits 10 n ++ rest) = some (.natural n, rest) := by
  obtain ⟨d, ds, written, digit⟩ := Text.exists_toDigits n
  rw [← unsigned?_toDigits ends n, written]
  exact value?_of_isDigit digit fuel (ds ++ rest)

/-! ## Documents -/

theorem skipBlank_skipBlank (cs : List Char) : skipBlank (skipBlank cs) = skipBlank cs :=
  List.dropWhile_idempotent isBlank cs

/-- Blanks before the first item are skipped anyway. -/
theorem items?_skipBlank (fuel : Nat) (cs : List Char) :
    items? fuel (skipBlank cs) = items? fuel cs := by
  cases fuel <;> simp [items?, skipBlank_skipBlank]

theorem members?_skipBlank (fuel : Nat) (cs : List Char) :
    members? fuel (skipBlank cs) = members? fuel cs := by
  cases fuel <;> simp [members?, skipBlank_skipBlank]

/-- A written value begins with a character that is no blank and closes nothing. -/
theorem head_of_writes {j : Json} {cs : List Char} (written : Writes j cs) :
    ∃ c tail, cs = c :: tail ∧ isBlank c = false ∧ c ≠ ']' := by
  cases written
  case natural n =>
    obtain ⟨d, ds, written, digit⟩ := Text.exists_toDigits n
    have plain : isStop d = false := by
      refine Bool.eq_false_iff.2 fun stop => ?_
      simp [isDigit_of_isStop stop] at digit
    simp only [isStop, Bool.or_eq_false_iff, decide_eq_false_iff_not] at plain
    exact ⟨d, ds, written, plain.1.1.1, plain.1.2⟩
  all_goals exact ⟨_, _, rfl, by decide, by decide⟩

theorem skipBlank_of_writes {j : Json} {cs : List Char} (written : Writes j cs) {left : List Char}
    (blank : Blank left) (rest : List Char) : skipBlank (left ++ (cs ++ rest)) = cs ++ rest := by
  obtain ⟨c, tail, rfl, solid, _⟩ := head_of_writes written
  rw [skipBlank_append blank, List.cons_append, skipBlank_of_head solid]

theorem head_of_writesItems {items : List Json} {cs : List Char} (written : WritesItems items cs)
    (rest : List Char) : ∃ c tail, skipBlank (cs ++ rest) = c :: tail ∧ c ≠ ']' := by
  cases written
  case last before item _ | more before item _ _ =>
    obtain ⟨c, tail, rfl, _, other⟩ := head_of_writes item
    exact ⟨c, _, by simpa using skipBlank_of_writes item before _, other⟩

theorem head_of_writesMembers {members : List (String × Json)} {cs : List Char}
    (written : WritesMembers members cs) (rest : List Char) :
    ∃ tail, skipBlank (cs ++ rest) = '"' :: tail := by
  cases written
  case last name _ _ _ _ _ before _ _ _ | more name _ _ _ _ _ _ _ before _ _ _ _ =>
    exact ⟨_, by simpa [quoted] using skipBlank_of_writes (.text name) before _⟩

/-- After a value come blanks, and then what ends it. -/
theorem skipBlank_stop {right : List Char} (blank : Blank right) {c : Char} (solid : isBlank c = false)
    (rest : List Char) : skipBlank (right ++ c :: rest) = c :: rest := by
  rw [skipBlank_append blank, skipBlank_of_head solid]

section Steps

variable {fuel : Nat} {cs right after rest : List Char}

theorem value?_list {items : List Json} (read : items? fuel cs = some (items, rest))
    (other : ∃ c tail, skipBlank cs = c :: tail ∧ c ≠ ']') :
    value? (fuel + 1) ('[' :: cs) = some (.list items, rest) := by
  obtain ⟨c, tail, skipped, open_⟩ := other
  rw [← items?_skipBlank, skipped] at read
  simp [value?, skipped, open_, read]

theorem value?_object {members : List (String × Json)} (read : members? fuel cs = some (members, rest))
    (other : ∃ tail, skipBlank cs = '"' :: tail) :
    value? (fuel + 1) ('\x7b' :: cs) = some (.object members, rest) := by
  obtain ⟨tail, skipped⟩ := other
  rw [← members?_skipBlank, skipped] at read
  simp [value?, skipped, read]

theorem items?_last {item : Json}
    (read : value? fuel (skipBlank cs) = some (item, right ++ ']' :: rest)) (blank : Blank right) :
    items? (fuel + 1) cs = some ([item], rest) := by
  simp [items?, read, skipBlank_stop blank (c := ']') (by decide)]

theorem items?_more {item : Json} {items : List Json}
    (read : value? fuel (skipBlank cs) = some (item, right ++ ',' :: after)) (blank : Blank right)
    (others : items? fuel after = some (items, rest)) :
    items? (fuel + 1) cs = some (item :: items, rest) := by
  simp [items?, read, skipBlank_stop blank (c := ',') (by decide), others]

theorem members?_last {name : String} {value : Json}
    (named : skipBlank cs = quoted name ++ ':' :: after)
    (read : value? fuel (skipBlank after) = some (value, right ++ '\x7d' :: rest))
    (blank : Blank right) : members? (fuel + 1) cs = some ([(name, value)], rest) := by
  simp [members?, named, quoted, textBody_flatMap_escape, read,
    skipBlank_of_head (c := ':') (by decide), skipBlank_stop blank (c := '\x7d') (by decide)]

theorem members?_more {name : String} {value : Json} {members : List (String × Json)}
    {next : List Char} (named : skipBlank cs = quoted name ++ ':' :: after)
    (read : value? fuel (skipBlank after) = some (value, right ++ ',' :: next)) (blank : Blank right)
    (others : members? fuel next = some (members, rest)) :
    members? (fuel + 1) cs = some ((name, value) :: members, rest) := by
  simp [members?, named, quoted, textBody_flatMap_escape, read, others,
    skipBlank_of_head (c := ':') (by decide), skipBlank_stop blank (c := ',') (by decide)]

end Steps

mutual

/-- The reader finds the value that is written, and stops where it ends. -/
theorem value?_of_writes {j : Json} {cs : List Char} : Writes j cs → ∀ fuel : Nat,
    cs.length < fuel → ∀ {rest : List Char}, Ends rest → value? fuel (cs ++ rest) = some (j, rest)
  | _, 0, short, _, _ => absurd short (Nat.not_lt_zero _)
  | .null, _ + 1, _, _, _ => by simp [value?]
  | .true, _ + 1, _, _, _ => by simp [value?]
  | .false, _ + 1, _, _, _ => by simp [value?]
  | .natural n, fuel + 1, _, _, ends => value?_toDigits ends fuel n
  | .otherNumber, _ + 1, _, _, ends => by
    have zero := unsigned?_toDigits ends 0
    rw [Text.toDigits_zero, List.singleton_append] at zero
    simp [value?, number?, zero]
  | .text s, _ + 1, _, _, _ => by simp [value?, quoted, textBody_flatMap_escape]
  | .unpairedText, _ + 1, _, _, _ => by
    have broken : hexWord? 'd' '8' '0' '0' = some 0xD800 := by decide
    simp [value?, textBody, broken, isLeading, breakIf]
  | .nothing, _ + 1, _, _, _ => by simp [value?, skipBlank, isBlank]
  | .list body, _ + 1, short, rest, _ =>
    value?_list (items?_of_writes body _ (Nat.lt_of_succ_lt_succ short) rest)
      (head_of_writesItems body rest)
  | .empty, _ + 1, _, _, _ => by simp [value?, skipBlank, isBlank]
  | .object body, _ + 1, short, rest, _ =>
    value?_object (members?_of_writes body _ (Nat.lt_of_succ_lt_succ short) rest)
      (head_of_writesMembers body rest)

theorem items?_of_writes {items : List Json} {cs : List Char} : WritesItems items cs → ∀ fuel : Nat,
    cs.length < fuel → ∀ rest : List Char, items? fuel (cs ++ rest) = some (items, rest)
  | _, 0, short, _ => absurd short (Nat.not_lt_zero _)
  | .last before written after, fuel + 1, short, rest => by
    simp only [List.length_append, List.length_cons, List.length_nil] at short
    refine items?_last ?_ after
    simpa [skipBlank_of_writes written before] using
      value?_of_writes written fuel (by omega) (ends_append after (by decide) rest)
  | .more before written after others, fuel + 1, short, rest => by
    simp only [List.length_append, List.length_cons] at short
    refine items?_more ?_ after (items?_of_writes others fuel (by omega) rest)
    simpa [skipBlank_of_writes written before] using
      value?_of_writes written fuel (by omega) (ends_append after (by decide) _)

theorem members?_of_writes {members : List (String × Json)} {cs : List Char} :
    WritesMembers members cs → ∀ fuel : Nat, cs.length < fuel → ∀ rest : List Char,
      members? fuel (cs ++ rest) = some (members, rest)
  | _, 0, short, _ => absurd short (Nat.not_lt_zero _)
  | .last name before between written after, fuel + 1, short, rest => by
    simp only [List.length_append, List.length_cons, List.length_nil] at short
    refine members?_last (by simpa using skipBlank_of_writes (.text name) before _) ?_ after
    simpa [skipBlank_of_writes written between] using
      value?_of_writes written fuel (by omega) (ends_append after (by decide) rest)
  | .more name before between written after others, fuel + 1, short, rest => by
    simp only [List.length_append, List.length_cons] at short
    refine members?_more (by simpa using skipBlank_of_writes (.text name) before _) ?_ after
      (members?_of_writes others fuel (by omega) rest)
    simpa [skipBlank_of_writes written between] using
      value?_of_writes written fuel (by omega) (ends_append after (by decide) _)

end

/-- A text that writes a document is read as that document. -/
theorem parse?_of_writes {j : Json} {cs : List Char} (written : Writes j cs) :
    parse? (String.ofList cs) = some j := by
  have skipped : skipBlank cs = cs := by simpa using skipBlank_of_writes written blank_nil []
  have read := value?_of_writes written _ (Nat.lt_succ_self _) ends_nil
  rw [List.append_nil] at read
  have done : skipBlank [] = [] := rfl
  simp [parse?, skipped, read, done]

theorem parse?_compact (j : Json) : parse? j.compact = some j := parse?_of_writes (writes_compact j)

theorem parse?_pretty (j : Json) : parse? j.pretty = some j := parse?_of_writes (writes_pretty 0 j)

end SteeredActors.Json
