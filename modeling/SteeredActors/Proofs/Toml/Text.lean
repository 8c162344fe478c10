import Mathlib.Tactic.SplitIfs
import SteeredActors.Proofs.Text.Digits
import SteeredActors.Toml.Text
import SteeredActors.Toml.Writer

/-!
# Texts in settings files are read back

The plainest way to write a text has no escapes, and no more quotes in a row than its own quotes allow.
Whichever way is taken, the reader finds the text that was written and stops at the end of its line.
-/

set_option autoImplicit false
set_option relaxedAutoImplicit false

namespace SteeredActors.Toml

open Text (hexValue? hexValue?_digitChar)

/-! ## Escapes -/

/-- Capital digits have the same values. -/
theorem hexValue?_toUpper {n : Nat} (small : n < 16) :
    hexValue? (Nat.digitChar n).toUpper = some n := by
  have each : ∀ m < 16, hexValue? (Nat.digitChar m).toUpper = some m := by decide
  exact each n small

theorem codePoint?_control {c : Char} (small : c.toNat < 256) :
    codePoint? (controlDigits c.toNat) = some c := by
  have zero : hexValue? '0' = some 0 := hexValue?_digitChar (n := 0) (by decide)
  have number : hexNumber? (controlDigits c.toNat) = some c.toNat := by
    simp only [hexNumber?, controlDigits, List.foldlM_cons, List.foldlM_nil, zero,
      hexValue?_toUpper (show c.toNat / 16 < 16 by omega),
      hexValue?_toUpper (show c.toNat % 16 < 16 by omega), Option.map_some, Option.bind_eq_bind,
      Option.bind_some, Option.pure_def, Option.some.injEq]
    omega
  have valid : c.toNat < 0xD800 ∨ (0xE000 ≤ c.toNat ∧ c.toNat < 0x110000) := Or.inl (by omega)
  simp only [codePoint?, number, Option.bind_eq_bind, Option.bind_some, if_pos valid,
    Char.ofNat_toNat]

theorem lt_of_isControl {c : Char} (control : isControl c = true) : c.toNat < 256 := by
  simp only [isControl, Bool.or_eq_true, Bool.and_eq_true, decide_eq_true_eq] at control
  omega

/-- What is no control may stand as it is, apart from line breaks. -/
theorem isPlain_of_isControl {c : Char} (control : isControl c = false) :
    isPlain c = true ∨ c = '\n' := by
  simp only [isControl, Bool.or_eq_false_iff, Bool.and_eq_false_iff, decide_eq_false_iff_not,
    bne_eq_false_iff_eq] at control
  simp only [isPlain, Bool.or_eq_true, Bool.and_eq_true, decide_eq_true_eq, bne_iff_ne]
  obtain ⟨other, (shown | tab) | line⟩ := control
  · exact Or.inl (Or.inr ⟨by omega, other⟩)
  · exact Or.inl (Or.inl tab)
  · exact Or.inr line

/-- A reader of text between double quotes, which undoes escapes. -/
structure Unescapes (read? : List Char → Option (List Char × List Char)) : Prop where
  short : ∀ {c e : Char} (cs : List Char), shortEscape? c = some e →
    read? ('\\' :: c :: cs) = before e (read? cs)
  code : ∀ {a b c d e : Char} (cs : List Char), codePoint? [a, b, c, d] = some e →
    read? ('\\' :: 'u' :: a :: b :: c :: d :: cs) = before e (read? cs)
  plain : ∀ {c : Char} (cs : List Char), isPlain c = true → c ≠ '"' → c ≠ '\\' →
    read? (c :: cs) = before c (read? cs)

theorem letter_of_shortEscape? {c e : Char} (short : shortEscape? c = some e) :
    c ≠ 'u' ∧ c ≠ 'U' ∧ isBlank c = false ∧ c ≠ '\n' ∧ c ≠ '\x0d' := by
  refine ⟨?_, ?_, ?_, ?_, ?_⟩
  iterate 2
    rintro rfl
    simp [shortEscape?] at short
  · by_cases space : c = ' '
    · simp [space, shortEscape?] at short
    · by_cases tab : c = '\t'
      · simp [tab, shortEscape?] at short
      · simp [isBlank, space, tab]
  iterate 2
    rintro rfl
    simp [shortEscape?] at short

theorem unescapes_basicText? : Unescapes basicText? where
  short cs short := by
    obtain ⟨small, capital, _⟩ := letter_of_shortEscape? short
    simp [basicText?, small, capital, short]
  code cs code := by simp [basicText?, code]
  plain cs plain quote backslash := by simp [basicText?, plain, backslash]

theorem breaksLine_of_solid {c : Char} (solid : isBlank c = false) (line : c ≠ '\n') (ret : c ≠ '\x0d')
    (cs : List Char) : breaksLine (c :: cs) = false := by
  simp [breaksLine, skipBlank, solid, line, ret]

theorem unescapes_multilineText? : Unescapes (multilineText? false) where
  short cs short := by
    obtain ⟨small, capital, solid, line, ret⟩ := letter_of_shortEscape? short
    simp [multilineText?, small, capital, short, breaksLine_of_solid solid line ret]
  code cs code := by simp [multilineText?, code]
  plain {c} cs plain quote backslash := by
    have ret : c ≠ '\x0d' := by
      rintro rfl
      simp [isPlain] at plain
    simp [multilineText?, plain, quote, backslash, ret]

/-- Whichever way a character is escaped, it is read as itself. -/
theorem Unescapes.escape {read? : List Char → Option (List Char × List Char)}
    (unescapes : Unescapes read?) {multiline : Bool}
    (lines : multiline = true → ∀ cs, read? ('\n' :: cs) = before '\n' (read? cs)) {c : Char}
    (quote : c ≠ '"') (cs : List Char) :
    read? (Toml.escape multiline c ++ cs) = before c (read? cs) := by
  unfold Toml.escape
  split_ifs with backspace tab line several feed ret backslash control
  · exact unescapes.short cs (by simp [shortEscape?, backspace])
  · exact unescapes.short cs (by simp [shortEscape?, tab])
  · rw [line]
    exact lines several cs
  · exact unescapes.short cs (by simp [shortEscape?, line])
  · exact unescapes.short cs (by simp [shortEscape?, feed])
  · exact unescapes.short cs (by simp [shortEscape?, ret])
  · exact unescapes.short cs (by simp [shortEscape?, backslash])
  · exact unescapes.code cs (codePoint?_control (lt_of_isControl control))
  · have plain := (isPlain_of_isControl (by simpa using control)).resolve_right line
    exact unescapes.plain cs plain quote backslash

/-! ## Double quotes -/

/-- Between double quotes on one line no quote stands without an escape. -/
theorem basicText?_escapeAll (cs rest : List Char) :
    basicText? (escapeAll false 0 cs ++ '"' :: rest) = some (cs, rest) := by
  induction cs with
  | nil => simp [escapeAll, basicText?]
  | cons c cs ih =>
    unfold escapeAll
    split_ifs with quote
    · have short : shortEscape? '"' = some '"' := by decide
      rw [quote, List.cons_append, List.cons_append, unescapes_basicText?.short _ short]
      simp [quotesInRow, ih, before]
    · rw [List.append_assoc, unescapes_basicText?.escape (by simp) quote]
      simp [quotesInRow, ih, before]

/-- A text follows that does not begin with a character. -/
def NotNext (q : Char) (rest : List Char) : Prop := ∀ c ∈ rest.head?, c ≠ q

theorem NotNext.ne_cons {q : Char} {rest : List Char} (other : NotNext q rest) (tail : List Char) :
    rest ≠ q :: tail := by
  rintro rfl
  exact other q rfl rfl

/-- A reader of text up to three quotes in a row. Two more just before those are text, and so are up to two
elsewhere. -/
structure Encloses (q : Char) (read? : List Char → Option (List Char × List Char)) : Prop where
  one : ∀ {rest : List Char}, NotNext q rest → read? (q :: rest) = before q (read? rest)
  two : ∀ {rest : List Char}, NotNext q rest →
    read? (q :: q :: rest) = before q (before q (read? rest))
  three : ∀ {rest : List Char}, NotNext q rest → read? (q :: q :: q :: rest) = some ([], rest)
  four : ∀ {rest : List Char}, NotNext q rest → read? (q :: q :: q :: q :: rest) = some ([q], rest)
  five : ∀ rest : List Char, read? (q :: q :: q :: q :: q :: rest) = some ([q, q], rest)

section

variable {q : Char} {read? : List Char → Option (List Char × List Char)} {rest : List Char}
  {quotes : Nat}

/-- Up to two quotes in a row are read as they are. -/
theorem Encloses.inner (encloses : Encloses q read?) (other : NotNext q rest) (few : quotes ≤ 2) :
    read? (List.replicate quotes q ++ rest) =
      (read? rest).map fun (s, r) => (List.replicate quotes q ++ s, r) := by
  match quotes, few with
  | 0, _ => simp
  | 1, _ => exact encloses.one other
  | 2, _ =>
    refine (encloses.two other).trans ?_
    simp [List.replicate, before, Function.comp_def]

/-- Three quotes end the text, two more before them belonging to it. -/
theorem Encloses.outer (encloses : Encloses q read?) (other : NotNext q rest) (few : quotes ≤ 2) :
    read? (List.replicate quotes q ++ [q, q, q] ++ rest) = some (List.replicate quotes q, rest) := by
  match quotes, few with
  | 0, _ => exact encloses.three other
  | 1, _ => exact encloses.four other
  | 2, _ => exact encloses.five rest

end

theorem encloses_multilineText? : Encloses '"' (multilineText? false) where
  one other := by simp [multilineText?, other.ne_cons, show isPlain '"' = true by decide]
  two other := by simp [multilineText?, other.ne_cons, show isPlain '"' = true by decide]
  three other := by simp [multilineText?, other.ne_cons]
  four other := by simp [multilineText?, other.ne_cons]
  five rest := by simp [multilineText?]

theorem notNext_escape {c : Char} (quote : c ≠ '"') (multiline : Bool) (cs : List Char) :
    NotNext '"' (Toml.escape multiline c ++ cs) := by
  unfold Toml.escape NotNext
  split_ifs <;> simp [quote]

/-- Of the quotes in a row that were read so far, `2 - quotes`, all belong to the text, and there is room
for so many more as the writer may still write without an escape. -/
theorem multilineText?_escapeAll {rest : List Char} (other : NotNext '"' rest) (cs : List Char)
    {quotes : Nat} (few : quotes ≤ 2) :
    multilineText? false
        (List.replicate (2 - quotes) '"' ++ (escapeAll true quotes cs ++ (['"', '"', '"'] ++ rest))) =
      some (List.replicate (2 - quotes) '"' ++ cs, rest) := by
  have lines : true = true → ∀ cs, multilineText? false ('\n' :: cs) =
      before '\n' (multilineText? false cs) := fun _ cs => by simp [multilineText?]
  induction cs generalizing quotes with
  | nil =>
    rw [escapeAll, List.nil_append, ← List.append_assoc,
      encloses_multilineText?.outer other (Nat.sub_le 2 quotes), List.append_nil]
  | cons c cs ih =>
    have fresh := @ih 2 (Nat.le_refl 2)
    simp only [Nat.sub_self, List.replicate_zero, List.nil_append, List.cons_append] at fresh
    unfold escapeAll
    split_ifs with quote
    · subst quote
      cases quotes with
      | zero =>
        have short : shortEscape? '"' = some '"' := by decide
        rw [encloses_multilineText?.inner (by simp [NotNext]) (Nat.sub_le 2 0), List.cons_append,
          List.cons_append, unescapes_multilineText?.short _ short]
        simp [quotesInRow, before, fresh]
      | succ quotes =>
        have next := @ih quotes (by omega)
        rw [show 2 - quotes = 2 - (quotes + 1) + 1 by omega, List.replicate_succ'] at next
        simpa using next
    · rw [List.append_assoc,
        encloses_multilineText?.inner (notNext_escape quote true _) (Nat.sub_le 2 quotes),
        unescapes_multilineText?.escape lines quote]
      simp [quotesInRow, before, fresh]

/-! ## Single quotes -/

/-- Nothing has to be escaped. -/
def Uncontrolled (cs : List Char) : Prop := ∀ c ∈ cs, isControl c = false

theorem le_longestRun (q : Char) (run : Nat) (cs : List Char) : run ≤ longestRun q run cs := by
  induction cs generalizing run with
  | nil => exact Nat.le_refl run
  | cons c cs ih =>
    unfold longestRun
    split_ifs
    · exact Nat.le_of_succ_le (ih (run + 1))
    · exact Nat.le_max_left ..

/-- A text without a quote has no run of them. -/
theorem not_mem_of_longestRun {q : Char} {cs : List Char} (none : longestRun q 0 cs = 0) : q ∉ cs := by
  induction cs with
  | nil => simp
  | cons c cs ih =>
    unfold longestRun at none
    split_ifs at none with same
    · have := le_longestRun q (0 + 1) cs
      omega
    · rw [Nat.zero_max] at none
      simpa [Ne.symm same] using ih none

theorem literalText?_append {cs : List Char} (controls : Uncontrolled cs) (line : '\n' ∉ cs)
    (quotes : '\x27' ∉ cs) (rest : List Char) :
    literalText? (cs ++ '\x27' :: rest) = some (cs, rest) := by
  induction cs with
  | nil => simp [literalText?]
  | cons c cs ih =>
    rw [List.mem_cons, not_or] at line quotes
    have plain := (isPlain_of_isControl (controls c List.mem_cons_self)).resolve_right (Ne.symm line.1)
    have rest := ih (fun d mem => controls d (List.mem_cons_of_mem _ mem)) line.2 quotes.2
    simp [literalText?, Ne.symm quotes.1, plain, rest, before]

theorem encloses_multilineLiteral? : Encloses '\x27' multilineLiteral? where
  one other := by simp [multilineLiteral?, other.ne_cons, show isPlain '\x27' = true by decide]
  two other := by simp [multilineLiteral?, other.ne_cons, show isPlain '\x27' = true by decide]
  three other := by simp [multilineLiteral?, other.ne_cons]
  four other := by simp [multilineLiteral?, other.ne_cons]
  five rest := by simp [multilineLiteral?]

/-- A text with at most two quotes in a row is read up to the closing ones, together with those read
just before it. -/
theorem multilineLiteral?_append {rest : List Char} (other : NotNext '\x27' rest) {cs : List Char}
    (controls : Uncontrolled cs) {run : Nat} (few : longestRun '\x27' run cs ≤ 2) :
    multilineLiteral? (List.replicate run '\x27' ++ (cs ++ (['\x27', '\x27', '\x27'] ++ rest))) =
      some (List.replicate run '\x27' ++ cs, rest) := by
  induction cs generalizing run with
  | nil =>
    have room : run ≤ 2 := few
    rw [List.nil_append, ← List.append_assoc, encloses_multilineLiteral?.outer other room, List.append_nil]
  | cons c cs ih =>
    have tail : Uncontrolled cs := fun d mem => controls d (List.mem_cons_of_mem _ mem)
    have room := Nat.le_trans (le_longestRun _ _ _) few
    unfold longestRun at few
    split_ifs at few with quote
    · subst quote
      have next := ih tail few
      rw [List.replicate_succ'] at next
      simpa using next
    · have next := ih tail (Nat.le_trans (Nat.le_max_right ..) few)
      simp only [List.replicate_zero, List.nil_append, List.cons_append] at next
      have ret : c ≠ '\x0d' := by
        rintro rfl
        exact absurd (controls '\x0d' List.mem_cons_self) (by decide)
      have allowed : (isPlain c || decide (c = '\n')) = true := by
        simpa using isPlain_of_isControl (controls c List.mem_cons_self)
      rw [encloses_multilineLiteral?.inner (by simpa [NotNext] using quote) room]
      simp [multilineLiteral?, quote, ret, allowed, before, next]

/-! ## All ways to write a text -/

/-- No line break follows opening quotes that is not put there. -/
theorem trimBreak_leadingBreak {cs body : List Char}
    (begins : '\n' ∉ cs → NotNext '\n' body ∧ NotNext '\x0d' body) :
    trimBreak (leadingBreak cs ++ body) = body := by
  unfold leadingBreak
  split_ifs with several
  · rfl
  · obtain ⟨line, ret⟩ := begins several
    simp only [List.nil_append]
    unfold trimBreak
    split
    · exact absurd rfl (line.ne_cons _)
    · exact absurd rfl (ret.ne_cons _)
    · rfl

theorem text?_basic (cs : List Char) {rest : List Char} (other : NotNext '"' rest) :
    text? (basic cs ++ rest) = some (cs, rest) := by
  have single : ∀ tail, escapeAll false 0 cs ++ '"' :: rest ≠ '"' :: '"' :: tail := by
    cases cs with
    | nil => simpa [escapeAll] using other.ne_cons
    | cons c cs =>
      intro tail
      unfold escapeAll
      split_ifs with quote
      · simp
      · rw [List.append_assoc]
        exact (notNext_escape quote false _).ne_cons _
  simp [basic, text?, basicText?_escapeAll]

theorem text?_literal {cs : List Char} (filled : cs ≠ []) (controls : Uncontrolled cs)
    (line : '\n' ∉ cs) (quotes : '\x27' ∉ cs) (rest : List Char) :
    text? (literal cs ++ rest) = some (cs, rest) := by
  have single : ∀ tail, cs ++ '\x27' :: rest ≠ '\x27' :: '\x27' :: tail := by
    cases cs with
    | nil => exact absurd rfl filled
    | cons c cs =>
      rw [List.mem_cons, not_or] at quotes
      simp [Ne.symm quotes.1]
  simp [literal, text?, literalText?_append controls line quotes]

theorem text?_multilineBasic (cs : List Char) {rest : List Char} (other : NotNext '"' rest) :
    text? (multilineBasic cs ++ rest) = some (cs, rest) := by
  have read := multilineText?_escapeAll other cs (Nat.le_refl 2)
  simp only [Nat.sub_self, List.replicate_zero, List.nil_append] at read
  have begins : '\n' ∉ cs → NotNext '\n' (escapeAll true 2 cs ++ (['"', '"', '"'] ++ rest)) ∧
      NotNext '\x0d' (escapeAll true 2 cs ++ (['"', '"', '"'] ++ rest)) := by
    intro line
    cases cs with
    | nil => simp [escapeAll, NotNext]
    | cons c cs =>
      rw [List.mem_cons, not_or] at line
      unfold escapeAll NotNext Toml.escape
      split_ifs <;> simp_all [Ne.symm line.1]
  have opened : multilineBasic cs ++ rest = '"' :: '"' :: '"' ::
      (leadingBreak cs ++ (escapeAll true 2 cs ++ (['"', '"', '"'] ++ rest))) := by
    simp [multilineBasic]
  rw [opened, text?, trimBreak_leadingBreak begins, read]

theorem text?_multilineLiteral {cs : List Char} (controls : Uncontrolled cs)
    (few : longestRun '\x27' 0 cs ≤ 2) {rest : List Char} (other : NotNext '\x27' rest) :
    text? (multilineLiteral cs ++ rest) = some (cs, rest) := by
  have read := multilineLiteral?_append other controls few
  simp only [List.replicate_zero, List.nil_append] at read
  have begins : '\n' ∉ cs → NotNext '\n' (cs ++ (['\x27', '\x27', '\x27'] ++ rest)) ∧
      NotNext '\x0d' (cs ++ (['\x27', '\x27', '\x27'] ++ rest)) := by
    intro line
    cases cs with
    | nil => simp [NotNext]
    | cons c cs =>
      have ret : c ≠ '\x0d' := by
        rintro rfl
        exact absurd (controls '\x0d' List.mem_cons_self) (by decide)
      rw [List.mem_cons, not_or] at line
      simp [NotNext, ret, Ne.symm line.1]
  have opened : multilineLiteral cs ++ rest = '\x27' :: '\x27' :: '\x27' ::
      (leadingBreak cs ++ (cs ++ (['\x27', '\x27', '\x27'] ++ rest))) := by
    simp [multilineLiteral]
  rw [opened, text?, trimBreak_leadingBreak begins, read]

/-- A text is read back from the plainest way to write it. -/
theorem text?_quoted (cs rest : List Char) : text? (quoted cs ++ '\n' :: rest) = some (cs, '\n' :: rest) := by
  have other : NotNext '"' ('\n' :: rest) := by simp [NotNext]
  have separate : NotNext '\x27' ('\n' :: rest) := by simp [NotNext]
  unfold quoted
  extract_lets oneLine controls escapes doubles singles
  have uncontrolled : (!controls) = true → Uncontrolled cs := fun none => by
    simpa [controls, Uncontrolled] using none
  have noBreak : oneLine = true → '\n' ∉ cs := fun one => by simpa [oneLine] using one
  split_ifs with plain literal double single oneLine
  · exact text?_basic cs other
  · simp only [Bool.and_eq_true, decide_eq_true_eq] at literal plain
    obtain ⟨⟨none, zero⟩, one⟩ := literal
    have filled : cs ≠ [] := by
      rintro rfl
      exact plain ⟨⟨⟨none, rfl⟩, rfl⟩, one⟩
    exact text?_literal filled (uncontrolled none) (noBreak one) (not_mem_of_longestRun zero) _
  · exact text?_multilineBasic cs other
  · simp only [Bool.and_eq_true, decide_eq_true_eq] at single
    exact text?_multilineLiteral (uncontrolled single.1) single.2 separate
  · exact text?_basic cs other
  · exact text?_multilineBasic cs other

end SteeredActors.Toml
