import Mathlib.Tactic.SplitIfs
import SteeredActors.Proofs.Toml.Text
import SteeredActors.Toml.Reader

/-!
# Settings files are read back

Every line of a written file is read as what it says, and together they say nothing twice. So the table
that is read from a file holds exactly what was written to it.
-/

set_option autoImplicit false
set_option relaxedAutoImplicit false

namespace SteeredActors.Toml

open Text (isDigit NoDigit digitsValue)

/-! ## Numbers -/

section Numbers

variable {ds : List Char} (digits : ∀ d ∈ ds, isDigit d = true) (rest : List Char)

include digits

theorem moreDigits_append : moreDigits isDigit (ds ++ '\n' :: rest) = (ds, '\n' :: rest) := by
  induction ds with
  | nil => simp [moreDigits, show isDigit '\n' = false by decide]
  | cons d ds ih =>
    have digit := digits d List.mem_cons_self
    have underscore : d ≠ '_' := Text.ne_of_isDigit digit (by decide)
    have more := ih fun e mem => digits e (List.mem_cons_of_mem _ mem)
    simp [moreDigits, underscore, digit, more]

omit digits in
/-- Fewer digits than there are are taken, as a line break is none. -/
theorem le_of_fixed? {count value : Nat} {after : List Char}
    (read : fixed? count (ds ++ '\n' :: rest) = some (value, after)) :
    count ≤ ds.length ∧ after = ds.drop count ++ '\n' :: rest := by
  simp only [fixed?, Option.ite_none_right_eq_some, Option.some.injEq, Prod.mk.injEq] at read
  obtain ⟨⟨_, all⟩, _, rfl⟩ := read
  have short : count ≤ ds.length := by
    refine Nat.le_of_not_lt fun long => ?_
    obtain ⟨k, rfl⟩ := Nat.exists_eq_add_of_lt long
    simp [List.take_append, Nat.add_assoc, show isDigit '\n' = false by decide] at all
  exact ⟨short, List.drop_append_of_le_length short⟩

/-- Digits up to the end of a line go on neither as a date nor as a time. -/
theorem past?_of_fixed? {count value : Nat} {after : List Char}
    (read : fixed? count (ds ++ '\n' :: rest) = some (value, after)) {c : Char}
    (other : isDigit c = false) (line : c ≠ '\n') : past? c after = none := by
  obtain ⟨_, rfl⟩ := le_of_fixed? rest read
  cases left : ds.drop count with
  | nil => simp [past?, Ne.symm line]
  | cons d left =>
    have digit := digits d (List.mem_of_mem_drop (left ▸ List.mem_cons_self))
    simp [past?, Text.ne_of_isDigit digit other]

theorem moment?_append : moment? (ds ++ '\n' :: rest) = none := by
  have date : date? (ds ++ '\n' :: rest) = none := by
    unfold date?
    cases read : fixed? 4 (ds ++ '\n' :: rest) with
    | none => rfl
    | some read' => simp [past?_of_fixed? digits rest read (c := '-') (by decide) (by decide)]
  have time : time? (ds ++ '\n' :: rest) = none := by
    unfold time?
    cases read : fixed? 2 (ds ++ '\n' :: rest) with
    | none => rfl
    | some read' => simp [past?_of_fixed? digits rest read (c := ':') (by decide) (by decide)]
  simp [moment?, date, time]

theorem sign_append (filled : ds ≠ []) :
    sign (ds ++ '\n' :: rest) = (false, ds ++ '\n' :: rest) := by
  cases ds with
  | nil => exact absurd rfl filled
  | cons d ds =>
    have other := fun c => Text.ne_of_isDigit (c := c) (digits d List.mem_cons_self)
    simp [sign, other '-' (by decide), other '+' (by decide)]

end Numbers

section Natural

variable (n : Nat) (rest : List Char)

theorem wholeDigits?_toDigits :
    wholeDigits? (Nat.toDigits 10 n ++ '\n' :: rest) = some (Nat.toDigits 10 n, '\n' :: rest) := by
  rcases Nat.eq_zero_or_pos n with rfl | positive
  · rfl
  · have digits := fun d (mem : d ∈ Nat.toDigits 10 n) => Text.isDigit_of_mem_toDigits mem
    have first := Text.head?_toDigits positive
    obtain ⟨d, ds, written, digit⟩ := Text.exists_toDigits n
    rw [written] at digits first ⊢
    have zero : d ≠ '0' := by simpa using first
    have more := moreDigits_append (fun e mem => digits e (List.mem_cons_of_mem _ mem)) rest
    simp [wholeDigits?, zero, digits?, digit, more]

theorem real?_toDigits : real? (Nat.toDigits 10 n ++ '\n' :: rest) = none := by
  have digits := fun d (mem : d ∈ Nat.toDigits 10 n) => Text.isDigit_of_mem_toDigits mem
  have unsigned := sign_append digits rest Nat.toDigits_ne_nil
  have decimal : decimal? (Nat.toDigits 10 n ++ '\n' :: rest) = none := by
    simp [decimal?, unsigned, wholeDigits?_toDigits, fraction?, exponent?]
  have special : special? (Nat.toDigits 10 n ++ '\n' :: rest) = none := by
    obtain ⟨d, ds, written, digit⟩ := Text.exists_toDigits n
    have other := fun c => Text.ne_of_isDigit (c := c) digit
    rw [special?, unsigned, written]
    simp [other 'i' (by decide), other 'n' (by decide)]
  simp [real?, decimal, special]

theorem bounded?_natCast {n : Nat} (small : n < Nat.pow 2 63) : bounded? n = some (n : Int) := by
  unfold bounded?
  generalize Nat.pow 2 63 = bound at small ⊢
  exact if_pos ⟨by omega, by omega⟩

/-- The digits of a number begin with no mark of a base. -/
theorem integer?_eq_map : integer? (Nat.toDigits 10 n ++ '\n' :: rest) =
    (bounded? (digitsValue (Nat.toDigits 10 n))).map (·, '\n' :: rest) := by
  have digits := fun d (mem : d ∈ Nat.toDigits 10 n) => Text.isDigit_of_mem_toDigits mem
  have unsigned := sign_append digits rest Nat.toDigits_ne_nil
  have whole := wholeDigits?_toDigits n rest
  have mark : ∀ c, '\n' ≠ c → ∀ tail, Nat.toDigits 10 n ++ '\n' :: rest ≠ '0' :: c :: tail := by
    intro c line tail same
    rcases Nat.eq_zero_or_pos n with rfl | positive
    · rw [Text.toDigits_zero] at same
      exact line (List.cons.inj (List.cons.inj same).2).1
    · obtain ⟨d, ds, written, _⟩ := Text.exists_toDigits n
      have first := Text.head?_toDigits positive
      rw [written] at same first
      exact first (congrArg some (List.cons.inj same).1)
  unfold integer?
  split
  · exact absurd ‹_› (mark 'x' (by decide) _)
  · exact absurd ‹_› (mark 'o' (by decide) _)
  · exact absurd ‹_› (mark 'b' (by decide) _)
  · rw [unsigned]
    change ((wholeDigits? (Nat.toDigits 10 n ++ '\n' :: rest)).bind fun read =>
      (bounded? (digitsValue read.1)).bind fun i => some (i, read.2)) = _
    rw [whole, Option.bind_some, Option.map_eq_bind]
    rfl

theorem integer?_toDigits (small : n < Nat.pow 2 63) :
    integer? (Nat.toDigits 10 n ++ '\n' :: rest) = some ((n : Int), '\n' :: rest) := by
  rw [integer?_eq_map, Text.digitsValue_toDigits, bounded?_natCast small, Option.map_some]

theorem number?_toDigits (small : n < Nat.pow 2 63) :
    number? (Nat.toDigits 10 n ++ '\n' :: rest) = some (.integer n, '\n' :: rest) := by
  have digits := fun d (mem : d ∈ Nat.toDigits 10 n) => Text.isDigit_of_mem_toDigits mem
  simp [number?, moment?_append digits, real?_toDigits, integer?_toDigits n rest small]

end Natural

/-! ## Values -/

/-- The item that a value is read as. -/
def Plain.item : Plain → Item
  | .text s => .text s
  | .number n => .integer n
  | .bool b => .bool b

theorem head_quoted (cs : List Char) : ∃ q tail, quoted cs = q :: tail ∧ (q = '"' ∨ q = '\x27') := by
  unfold quoted
  extract_lets
  split_ifs <;> exact ⟨_, _, rfl, by decide⟩

/-- What no value begins with. -/
theorem Plain.head_chars (v : Plain) :
    ∃ c tail, v.chars = c :: tail ∧ isBlank c = false ∧ c ≠ '[' ∧ c ≠ '\x7b' := by
  match v with
  | .text s =>
    obtain ⟨q, tail, written, rfl | rfl⟩ := head_quoted s.toList
    all_goals exact ⟨_, tail, written, by decide, by decide, by decide⟩
  | .number n =>
    obtain ⟨d, tail, written, digit⟩ := Text.exists_toDigits n
    have other := fun c => Text.ne_of_isDigit (c := c) digit
    have solid : isBlank d = false := by simp [isBlank, other ' ' (by decide), other '\t' (by decide)]
    exact ⟨d, tail, written, solid, other _ (by decide), other _ (by decide)⟩
  | .bool true => exact ⟨_, _, rfl, by decide, by decide, by decide⟩
  | .bool false => exact ⟨_, _, rfl, by decide, by decide, by decide⟩

theorem simple?_chars {v : Plain} (fits : v.fits = true) (rest : List Char) :
    simple? (v.chars ++ '\n' :: rest) = some (v.item, '\n' :: rest) := by
  match v with
  | .text s =>
    have read := text?_quoted s.toList rest
    obtain ⟨q, tail, written, rfl | rfl⟩ := head_quoted s.toList
    all_goals
      rw [written] at read
      simp only [Plain.chars, written, List.cons_append] at read ⊢
      simp [simple?, read, Plain.item]
  | .number n =>
    have small : n < Nat.pow 2 63 := by simpa [Plain.fits] using fits
    have read := number?_toDigits n rest small
    obtain ⟨d, tail, written, digit⟩ := Text.exists_toDigits n
    have other := fun c => Text.ne_of_isDigit (c := c) digit
    have none : text? (d :: tail ++ '\n' :: rest) = none := by
      simp [text?, other '"' (by decide), other '\x27' (by decide)]
    rw [written] at read
    simp only [Plain.chars, written, List.cons_append] at read none ⊢
    simp [simple?, other 't' (by decide), other 'f' (by decide), none, read, Plain.item]
  | .bool true => simp [Plain.chars, simple?, Plain.item]
  | .bool false => simp [Plain.chars, simple?, Plain.item]

theorem value?_chars {v : Plain} (fits : v.fits = true) (depth : Nat) (rest : List Char) :
    value? depth (v.chars ++ '\n' :: rest) = some (v.item, '\n' :: rest) := by
  have read := simple?_chars fits rest
  obtain ⟨c, tail, written, _, bracket, brace⟩ := v.head_chars
  rw [written] at read ⊢
  cases depth with
  | zero => simpa [value?] using read
  | succ depth => simpa [value?, bracket, brace] using read

/-! ## Lines -/

/-- A name of lower-case letters and underscores. -/
def isWord (name : String) : Bool :=
  name.toList != [] && name.toList.all fun c => c.isLower || c = '_'

theorem isAlphanum_of_isLower {c : Char} (lower : c.isLower = true) : c.isAlphanum = true := by
  change ((c.isUpper || c.isLower) || c.isDigit) = true
  simp [lower]

section Words

variable {name : String} (word : isWord name = true)

include word

theorem mem_of_isWord {c : Char} (mem : c ∈ name.toList) : c.isLower = true ∨ c = '_' := by
  simp only [isWord, Bool.and_eq_true, List.all_eq_true, Bool.or_eq_true, decide_eq_true_eq] at word
  exact word.2 c mem

theorem head_of_isWord : ∃ c cs, name.toList = c :: cs ∧ (c.isLower = true ∨ c = '_') := by
  cases written : name.toList with
  | nil => simp [isWord, written] at word
  | cons c cs => exact ⟨c, cs, rfl, mem_of_isWord word (written ▸ List.mem_cons_self)⟩

theorem isBare_of_isWord {c : Char} (mem : c ∈ name.toList) : isBare c = true := by
  rcases mem_of_isWord word mem with lower | rfl
  · simp [isBare, isAlphanum_of_isLower lower]
  · decide

/-- What a word does not begin with. -/
theorem ne_of_isWord {c d : Char} {cs : List Char} (written : name.toList = c :: cs)
    (lower : d.isLower = false) (underscore : d ≠ '_') : c ≠ d := by
  rintro rfl
  rcases mem_of_isWord word (written ▸ List.mem_cons_self) with small | rfl
  · simp [small] at lower
  · exact underscore rfl

theorem keyPart?_of_isWord {stop : Char} (stops : isBare stop = false) (rest : List Char) :
    keyPart? (name.toList ++ stop :: rest) = some (name.toList, stop :: rest) := by
  have bare := fun c => isBare_of_isWord (c := c) word
  have taken : (name.toList ++ stop :: rest).takeWhile isBare = name.toList := by
    simp [List.takeWhile_append_of_pos bare, stops]
  have dropped : (name.toList ++ stop :: rest).dropWhile isBare = stop :: rest := by
    simp [List.dropWhile_append_of_pos bare, stops]
  obtain ⟨c, cs, written, _⟩ := head_of_isWord word
  have double : c ≠ '"' := ne_of_isWord word written (by decide) (by decide)
  have single : c ≠ '\x27' := ne_of_isWord word written (by decide) (by decide)
  rw [written] at taken dropped ⊢
  simp only [List.cons_append] at taken dropped ⊢
  simp [keyPart?, double, single, taken, dropped]

theorem skipBlank_of_isWord (rest : List Char) :
    skipBlank (name.toList ++ rest) = name.toList ++ rest := by
  obtain ⟨c, cs, written, _⟩ := head_of_isWord word
  have space : c ≠ ' ' := ne_of_isWord word written (by decide) (by decide)
  have tab : c ≠ '\t' := ne_of_isWord word written (by decide) (by decide)
  simp [written, skipBlank, isBlank, space, tab]

theorem key?_of_isWord {stop : Char} (stops : isBare stop = false) {rest after : List Char}
    (skipped : skipBlank (stop :: rest) = after) (dot : ∀ tail, after ≠ '.' :: tail) (parts : Nat) :
    key? (parts + 1) (name.toList ++ stop :: rest) = some (⟨[], name⟩, after) := by
  subst skipped
  simp [key?, skipBlank_of_isWord word, keyPart?_of_isWord word stops]

theorem pair?_of_isWord {v : Plain} (fits : v.fits = true) (rest : List Char) :
    pair? (value? maxDepth) (name.toList ++ ' ' :: '=' :: ' ' :: (v.chars ++ '\n' :: rest)) =
      some (⟨⟨[], name⟩, v.item⟩, '\n' :: rest) := by
  have equals : skipBlank (' ' :: '=' :: ' ' :: (v.chars ++ '\n' :: rest)) =
      '=' :: ' ' :: (v.chars ++ '\n' :: rest) := by simp [skipBlank, isBlank]
  have key := key?_of_isWord word (by decide) equals (by simp) 78
  have skipped : skipBlank (' ' :: (v.chars ++ '\n' :: rest)) = v.chars ++ '\n' :: rest := by
    obtain ⟨c, tail, written, solid, _⟩ := v.head_chars
    simp [written, skipBlank, solid, show isBlank ' ' = true from rfl]
  simp [pair?, maxDepth, key, past?, skipped, value?_chars fits]

theorem heading?_of_isWord (rest : List Char) :
    heading? false (name.toList ++ ']' :: '\n' :: rest) =
      some (⟨⟨[], name⟩, false⟩, '\n' :: rest) := by
  have bracket : skipBlank (']' :: '\n' :: rest) = ']' :: '\n' :: rest := by
    simp [skipBlank, isBlank]
  have key := key?_of_isWord word (by decide) bracket (by simp) 78
  simp [heading?, maxDepth, key, past?]

end Words

/-- A text is read as some lines, whatever fuel there is for them. -/
def Reads (cs : List Char) (lines : List Line) : Prop :=
  ∀ fuel, cs.length ≤ fuel → lines? fuel cs = some lines

theorem reads_nil : Reads [] [] := fun fuel _ => by simp [lines?]

theorem reads_blank {cs : List Char} {lines : List Line} (reads : Reads cs lines) :
    Reads ('\n' :: cs) lines := by
  intro fuel long
  obtain ⟨fuel, rfl⟩ := Nat.exists_eq_add_of_le' (Nat.le_trans (Nat.le_add_left 1 cs.length) long)
  have next : restOfLine? ('\n' :: cs) = some cs := by simp [restOfLine?, skipBlank, isBlank, lineEnd?]
  simp only [List.length_cons] at long
  simp [lines?, next, reads fuel (by omega)]

/-- A line that says something is read, and then the others. -/
theorem reads_filled {c : Char} {cs rest : List Char} {line : Line} {lines : List Line}
    (solid : isBlank c = false) (begins : c ≠ '#' ∧ c ≠ '\n' ∧ c ≠ '\x0d')
    (filled : filledLine? (c :: cs) = some (line, '\n' :: rest)) (shorter : rest.length ≤ cs.length)
    (reads : Reads rest lines) : Reads (c :: cs) (line :: lines) := by
  intro fuel long
  obtain ⟨hash, broken, ret⟩ := begins
  rw [List.length_cons] at long
  obtain ⟨fuel, rfl⟩ : ∃ n, fuel = n + 1 := ⟨fuel - 1, by omega⟩
  have skipped : skipBlank (c :: cs) = c :: cs := by simp [skipBlank, solid]
  have none : restOfLine? (c :: cs) = none := by
    simp [restOfLine?, skipped, hash, lineEnd?, broken, ret]
  have next : restOfLine? ('\n' :: rest) = some rest := by
    simp [restOfLine?, skipBlank, isBlank, lineEnd?]
  simp [lines?, none, skipped, filled, next, reads fuel (by omega)]

/-- The line of a value. -/
def pairLine : String × Plain → Line
  | (name, value) => .pair ⟨⟨[], name⟩, value.item⟩

/-- A heading with the lines of its group. -/
def headedLines : String × Group → List Line
  | (name, group) => .heading ⟨⟨[], name⟩, false⟩ :: group.map pairLine

theorem reads_pair {name : String} (word : isWord name = true) {v : Plain} (fits : v.fits = true)
    {rest : List Char} {lines : List Line} (reads : Reads rest lines) :
    Reads (name.toList ++ ' ' :: '=' :: ' ' :: (v.chars ++ '\n' :: rest))
      (pairLine (name, v) :: lines) := by
  have pair := pair?_of_isWord word fits rest
  obtain ⟨c, cs, written, _⟩ := head_of_isWord word
  have other := fun d => ne_of_isWord (d := d) word written
  have solid : isBlank c = false := by
    simp [isBlank, other ' ' (by decide) (by decide), other '\t' (by decide) (by decide)]
  rw [written, List.cons_append] at pair ⊢
  refine reads_filled solid ⟨other _ (by decide) (by decide), other _ (by decide) (by decide),
    other _ (by decide) (by decide)⟩ ?_ (by simp; omega) reads
  simp [filledLine?, other '[' (by decide) (by decide), pair, pairLine]

theorem reads_heading {name : String} (word : isWord name = true) {rest : List Char}
    {lines : List Line} (reads : Reads rest lines) :
    Reads ('[' :: (name.toList ++ ']' :: '\n' :: rest))
      (.heading ⟨⟨[], name⟩, false⟩ :: lines) := by
  have heading := heading?_of_isWord word rest
  obtain ⟨c, cs, written, _⟩ := head_of_isWord word
  have bracket : c ≠ '[' := ne_of_isWord word written (by decide) (by decide)
  rw [written, List.cons_append] at heading ⊢
  refine reads_filled (by decide) (by decide) ?_ (by simp; omega) reads
  simp [filledLine?, bracket, heading]

/-- The names of a group are words, and its values fit. -/
def Group.Writable (group : Group) : Prop :=
  ∀ entry ∈ group, isWord entry.1 = true ∧ entry.2.fits = true

theorem reads_group {group : Group} (writable : Group.Writable group) {rest : List Char}
    {lines : List Line} (reads : Reads rest lines) :
    Reads (groupChars group ++ rest) (group.map pairLine ++ lines) := by
  induction group with
  | nil => exact reads
  | cons entry group ih =>
    obtain ⟨word, fits⟩ := writable entry List.mem_cons_self
    have others := ih fun e mem => writable e (List.mem_cons_of_mem _ mem)
    simpa [groupChars] using reads_pair word fits others

/-- Headed groups after other lines are read, whether or not a blank line stands before them. -/
theorem reads_appendGroups {groups : List (String × Group)}
    (writable : ∀ entry ∈ groups, isWord entry.1 = true ∧ Group.Writable entry.2) (written : List Char) :
    ∃ added, appendGroups written groups = written ++ added ∧
      Reads added (groups.flatMap headedLines) ∧ NotNext '\uFEFF' added := by
  induction groups generalizing written with
  | nil => exact ⟨[], by simp [appendGroups], reads_nil, by simp [NotNext]⟩
  | cons entry groups ih =>
    obtain ⟨word, values⟩ := writable entry List.mem_cons_self
    unfold appendGroups
    extract_lets gap
    obtain ⟨added, appended, reads, _⟩ :=
      ih (fun e mem => writable e (List.mem_cons_of_mem _ mem))
        (written ++ gap ++ headedChars entry.1 entry.2)
    have headed := reads_heading word (reads_group values reads)
    have line : Reads (headedChars entry.1 entry.2 ++ added) ((entry :: groups).flatMap headedLines) := by
      simpa [headedChars, headedLines] using headed
    refine ⟨gap ++ (headedChars entry.1 entry.2 ++ added), appended.trans (by simp), ?_, ?_⟩
    · by_cases first : written.isEmpty = true
      · simpa [gap, first] using line
      · simpa [gap, first] using reads_blank line
    · by_cases first : written.isEmpty = true <;> simp [gap, first, headedChars, NotNext]

/-! ## Tables -/

/-- The item of a value. -/
def pairItem : String × Plain → String × Item
  | (name, value) => (name, value.item)

/-- The table of a group. -/
def groupItem : String × Group → String × Item
  | (name, group) => (name, .table .heading (group.map pairItem))

/-- What a pair of a group says. -/
def groupPair : String × Plain → Pair
  | (name, value) => ⟨⟨[], name⟩, value.item⟩

/-- What a heading and the pairs below it say. -/
def groupSection : String × Group → Section
  | (name, group) => ⟨⟨⟨[], name⟩, false⟩, group.map groupPair⟩

theorem ofLines_pairs (group : Group) (lines : List Line) :
    Document.ofLines (group.map pairLine ++ lines) =
      { Document.ofLines lines with
        opening := group.map groupPair ++ (Document.ofLines lines).opening } := by
  induction group with
  | nil => rfl
  | cons entry group ih => simp [pairLine, groupPair, Document.ofLines, ih]

theorem ofLines_headed (groups : List (String × Group)) :
    Document.ofLines (groups.flatMap headedLines) =
      ⟨[], groups.map groupSection⟩ := by
  induction groups with
  | nil => rfl
  | cons entry groups ih => simp [headedLines, groupSection, Document.ofLines, ofLines_pairs, ih]

/-- A new name is put after the others. -/
theorem put_of_lookup {name : String} {entries : Entries} (fresh : entries.lookup name = none)
    (item : Item) : entries.put name item = entries ++ [(name, item)] := by
  induction entries with
  | nil => rfl
  | cons entry entries ih =>
    rw [List.lookup_cons] at fresh
    split at fresh
    · cases fresh
    · next other =>
      have different : entry.1 ≠ name := by
        rintro rfl
        simp at other
      simp [Entries.put, different, ih fresh]

theorem lookup_of_not_mem {α : Type} {name : String} {entries : List (String × α)}
    (fresh : name ∉ entries.map Prod.fst) : entries.lookup name = none := by
  refine List.lookup_eq_none_iff.2 fun entry mem => ?_
  simpa using fun same => fresh (List.mem_map.2 ⟨entry, mem, same.symm⟩)

/-- Steps that each add an item under a new name add all of them, after the others. -/
theorem foldlM_of_nodup {β : Type} {step : Entries → β → Option Entries} {item : β → String × Item}
    {bs : List β} (adds : ∀ b ∈ bs, ∀ entries : Entries, entries.lookup (item b).1 = none →
      step entries b = some (entries.put (item b).1 (item b).2))
    {entries : Entries} (distinct : ((entries ++ bs.map item).map Prod.fst).Nodup) :
    bs.foldlM step entries = some (entries ++ bs.map item) := by
  induction bs generalizing entries with
  | nil => simp
  | cons b bs ih =>
    have fresh : (item b).1 ∉ entries.map Prod.fst := by
      rw [List.map_append, List.nodup_append] at distinct
      exact fun mem => distinct.2.2 _ mem (item b).1 (by simp) rfl
    have new := lookup_of_not_mem fresh
    have first := adds b List.mem_cons_self entries new
    rw [put_of_lookup new] at first
    have others : bs.foldlM step (entries ++ [item b]) = some (entries ++ [item b] ++ bs.map item) :=
      ih (fun c mem => adds c (List.mem_cons_of_mem _ mem)) (by simpa using distinct)
    simp [first, others]

theorem addPairs?_of_nodup {group : Group} (distinct : (group.map Prod.fst).Nodup) :
    addPairs? [] (group.map groupPair) = some (group.map pairItem) := by
  rw [addPairs?, List.foldlM_map]
  refine foldlM_of_nodup (fun entry _ entries new => ?_)
    (by simpa [Function.comp_def, pairItem] using distinct)
  change entries.lookup entry.1 = none at new
  simp [addPair?, groupPair, Entries.add?, new, pairItem]

/-- The names of a file are words, and different from one another within a table. -/
structure Regular (opening : Group) (groups : List (String × Group)) : Prop where
  first : ∀ entry ∈ opening, isWord entry.1 = true
  headings : ∀ entry ∈ groups, isWord entry.1 = true
  names : ∀ entry ∈ groups, ∀ value ∈ entry.2, isWord value.1 = true
  outer : (opening.map Prod.fst ++ groups.map Prod.fst).Nodup
  inner : ∀ entry ∈ groups, (entry.2.map Prod.fst).Nodup

theorem trimMark_of_notNext {cs : List Char} (other : NotNext '\uFEFF' cs) : trimMark cs = cs := by
  unfold trimMark
  split
  · exact absurd rfl (other.ne_cons _)
  · rfl

section Files

variable {opening : Group} {groups : List (String × Group)} (regular : Regular opening groups)

include regular

theorem table?_of_regular :
    Document.table? ⟨opening.map groupPair, groups.map groupSection⟩ =
      some (opening.map pairItem ++ groups.map groupItem) := by
  have outer := regular.outer
  have pairs := addPairs?_of_nodup (List.nodup_append.1 outer).1
  simp only [Document.table?, pairs, Option.bind_eq_bind, Option.bind_some, List.foldlM_map]
  refine foldlM_of_nodup (fun entry mem entries new => ?_)
    (by simpa [Function.comp_def, pairItem, groupItem] using outer)
  have inner := addPairs?_of_nodup (regular.inner entry mem)
  change entries.lookup entry.1 = none at new
  simp [addSection?, groupSection, changeAt?, new, inner, groupItem]

/-- What is read from a file is what was written to it. -/
theorem parse?_of_file? {text : String} (written : file? opening groups = some text) :
    parse? text = some (opening.map pairItem ++ groups.map groupItem) := by
  simp only [file?, List.all_append, List.all_flatMap, Option.ite_none_right_eq_some,
    Option.some.injEq, Bool.and_eq_true, List.all_eq_true] at written
  obtain ⟨⟨fits, fitting⟩, rfl⟩ := written
  have writable : ∀ entry ∈ groups, isWord entry.1 = true ∧ Group.Writable entry.2 := fun entry mem =>
    ⟨regular.headings entry mem, fun value inside =>
      ⟨regular.names entry mem value inside, fitting entry mem value inside⟩⟩
  obtain ⟨added, appended, reads, mark⟩ := reads_appendGroups writable (groupChars opening)
  have all := reads_group (fun entry mem => ⟨regular.first entry mem, fits entry mem⟩) reads
  have unmarked : trimMark (groupChars opening ++ added) = groupChars opening ++ added := by
    refine trimMark_of_notNext ?_
    cases opening with
    | nil => exact mark
    | cons entry opening =>
      obtain ⟨c, cs, name, _⟩ := head_of_isWord (regular.first entry List.mem_cons_self)
      have other : c ≠ '\uFEFF' :=
        ne_of_isWord (regular.first entry List.mem_cons_self) name (by decide) (by decide)
      simp [groupChars, name, NotNext, other]
  simp only [parse?, document?, String.toList_ofList, appended, unmarked]
  rw [all _ (Nat.le_refl _)]
  simp [ofLines_pairs, ofLines_headed, table?_of_regular regular]

end Files

end SteeredActors.Toml
