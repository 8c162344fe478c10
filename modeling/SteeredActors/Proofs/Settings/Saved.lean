import SteeredActors.Proofs.Settings.Layers
import SteeredActors.Settings.Reader
import SteeredActors.Settings.Writer

/-!
# Saved settings load back

Settings come about by choices, one after another, none of which makes a number too large for its word.
A file has room for one bit less. Where all numbers have room the settings are written to a file from
which the same settings are read, and only then it is checked whether they would make a run meaningless.
-/

set_option autoImplicit false
set_option relaxedAutoImplicit false

namespace SteeredActors

open Toml (Plain Group isWord)
open RawSetting (Whole)

/-! ## Choices -/

namespace Settings

/-- One way to change settings. -/
inductive Choice where
  | mode (mode : Mode)
  | strategy (strategy : StrategyKind)
  | iterations (iterations : Nat)
  | maxSteps (maxSteps : Nat)
  | seed (seed : Nat)
  | pctChangePoints (pctChangePoints : Nat)
  | replayTrace (path : String)
  | dequeuePolicy (policy : DequeuePolicy)
  | generation (generation : Nat)
  | traceOutput (path : String)
  | level (level : String)
  | ansi (ansi : Bool)
  | json (json : Bool)

/-- The settings after a choice. -/
def choose (s : Settings) : Choice → Settings
  | .mode mode => s.withMode mode
  | .strategy strategy => s.withStrategy strategy
  | .iterations iterations => s.withIterations iterations
  | .maxSteps maxSteps => s.withMaxSteps maxSteps
  | .seed seed => s.withSeed seed
  | .pctChangePoints points => s.withPctChangePoints points
  | .replayTrace path => s.withReplayTrace path
  | .dequeuePolicy policy => s.withDequeuePolicy policy
  | .generation generation => s.withGeneration generation
  | .traceOutput path => s.withTraceOutput path
  | .level level => { s with logging := { s.logging with level } }
  | .ansi ansi => { s with logging := { s.logging with ansi } }
  | .json json => { s with logging := { s.logging with json } }

/-- The number of a choice fits its word: 32 bits for iterations and change points, 64 for the others. -/
def Choice.Fits : Choice → Prop
  | .iterations n | .pctChangePoints n => n < Nat.pow 2 32
  | .maxSteps n | .seed n | .generation n => n < Nat.pow 2 64
  | _ => True

/-- Settings with numbers that fit their words. -/
structure Fits (s : Settings) : Prop where
  iterations : s.scheduling.iterations < Nat.pow 2 32
  pctChangePoints : s.scheduling.pctChangePoints < Nat.pow 2 32

theorem Fits.choose {s : Settings} (fits : s.Fits) {choice : Choice} (small : choice.Fits) :
    (s.choose choice).Fits := by
  cases choice with
  | iterations n => exact ⟨small, fits.pctChangePoints⟩
  | pctChangePoints n => exact ⟨fits.iterations, small⟩
  | _ => exact ⟨fits.iterations, fits.pctChangePoints⟩

theorem Fits.foldl {s : Settings} (fits : s.Fits) {choices : List Choice}
    (small : ∀ choice ∈ choices, choice.Fits) : (choices.foldl Settings.choose s).Fits := by
  induction choices generalizing s with
  | nil => exact fits
  | cons choice choices ih =>
    exact ih (fits.choose (small choice List.mem_cons_self))
      fun c mem => small c (List.mem_cons_of_mem _ mem)

/-- All numbers among the settings. -/
def numbers (s : Settings) : List Nat :=
  [s.scheduling.iterations, s.scheduling.maxSteps] ++ s.scheduling.seed.toList ++
    [s.scheduling.pctChangePoints, s.runtime.generation]

end Settings

/-! ## Tables -/

namespace RawSetting

/-- What a written value is read as. -/
def ofPlain : Plain → RawSetting
  | .text s => .text s
  | .number n => .integer n
  | .bool b => .bool b

/-- The setting of a written value. -/
def ofPair : String × Plain → String × RawSetting
  | (name, value) => (name, ofPlain value)

/-- The settings of a written group. -/
def ofGroup : String × Group → String × RawSetting
  | (name, group) => (name, .table (group.map ofPair))

theorem ofEntries_eq_map (entries : Toml.Entries) :
    ofEntries entries = entries.map fun entry => (entry.1, ofItem entry.2) := by
  induction entries with
  | nil => rfl
  | cons entry entries ih => simp [ofEntries, ih]

theorem ofItem_item (v : Plain) : ofItem v.item = ofPlain v := by
  cases v <;> rfl

theorem ofEntries_pairs (group : Group) : ofEntries (group.map Toml.pairItem) = group.map ofPair := by
  simp [ofEntries_eq_map, Toml.pairItem, ofPair, ofItem_item, Function.comp_def]

theorem ofEntries_groups (groups : List (String × Group)) :
    ofEntries (groups.map Toml.groupItem) = groups.map ofGroup := by
  rw [ofEntries_eq_map, List.map_map]
  refine List.map_congr_left fun entry _ => ?_
  simp [Toml.groupItem, ofGroup, ofItem, ofEntries_pairs]

theorem whole_ofPlain (v : Plain) : Whole (ofPlain v) := by
  intro inner same
  cases v <;> cases same

theorem whole_ofGroup {group : String × Group} (words : ∀ entry ∈ group.2, isWord entry.1 = true)
    (distinct : (group.2.map Prod.fst).Nodup) : Whole (ofGroup group).2 := by
  rintro inner ⟨⟩
  refine putAll_of_nodup ?_ ?_ (by simpa [Function.comp_def, ofPair] using distinct)
  · intro value mem
    obtain ⟨pair, inside, rfl⟩ := List.mem_map.1 mem
    exact words pair inside
  · intro value mem
    obtain ⟨pair, _, rfl⟩ := List.mem_map.1 mem
    exact whole_ofPlain pair.2

/-- A file that names nothing twice sets what it says. -/
theorem overlayFile_of_regular {opening : Group} {groups : List (String × Group)}
    (regular : Toml.Regular opening groups) :
    overlayFile (.table []) (opening.map Toml.pairItem ++ groups.map Toml.groupItem) =
      .table (opening.map ofPair ++ groups.map ofGroup) := by
  have items : ofEntries (opening.map Toml.pairItem ++ groups.map Toml.groupItem) =
      opening.map ofPair ++ groups.map ofGroup := by
    rw [← ofEntries_pairs, ← ofEntries_groups]
    simp [ofEntries_eq_map]
  have words : ∀ entry ∈ opening.map ofPair ++ groups.map ofGroup, isWord entry.1 = true := by
    intro entry mem
    rcases List.mem_append.1 mem with single | headed
    · obtain ⟨value, here, rfl⟩ := List.mem_map.1 single
      exact regular.first value here
    · obtain ⟨group, here, rfl⟩ := List.mem_map.1 headed
      exact regular.headings group here
  have whole : ∀ entry ∈ opening.map ofPair ++ groups.map ofGroup, Whole entry.2 := by
    intro entry mem
    rcases List.mem_append.1 mem with single | headed
    · obtain ⟨value, here, rfl⟩ := List.mem_map.1 single
      exact whole_ofPlain value.2
    · obtain ⟨group, here, rfl⟩ := List.mem_map.1 headed
      exact whole_ofGroup (regular.names group here) (regular.inner group here)
  rw [overlayFile_eq_putAll (items ▸ words), items, putAll_of_nodup words whole, List.nil_append]
  simpa [Function.comp_def, ofPair, ofGroup] using regular.outer

theorem constant?_of_isWord {α : Type} {all : List α} {word : α → String} {a : α}
    (plain : isWord (word a) = true) (found : all.find? (fun b => word b == word a) = some a) :
    constant? all word (.text (word a)) = some a := by
  simpa [constant?, toLower_of_isWord plain] using found

@[simp] theorem constant?_mode (mode : Mode) :
    constant? Mode.all Mode.word (.text mode.word) = some mode := by
  cases mode <;> exact constant?_of_isWord (by decide) (by decide)

@[simp] theorem constant?_strategy (strategy : StrategyKind) :
    constant? StrategyKind.all StrategyKind.word (.text strategy.word) = some strategy := by
  cases strategy <;> exact constant?_of_isWord (by decide) (by decide)

@[simp] theorem constant?_policy (policy : DequeuePolicy) :
    constant? DequeuePolicy.all DequeuePolicy.word (.text policy.word) = some policy := by
  cases policy <;> exact constant?_of_isWord (by decide) (by decide)

end RawSetting

/-! ## Settings -/

open RawSetting (ofPair ofGroup ofPlain)

theorem SchedulingSettings.read?_write {s : SchedulingSettings} (iterations : s.iterations < Nat.pow 2 32)
    (points : s.pctChangePoints < Nat.pow 2 32) : read? (s.write.map ofPair) = some s := by
  obtain ⟨mode, strategy, n, steps, seed, m, path⟩ := s
  simp only at iterations points
  cases seed <;> cases path <;>
    simp [read?, write, writeOptional, ofPair, ofPlain, RawSetting.field?, RawSetting.optional?,
      List.lookup_cons, RawSetting.small?, RawSetting.natural?, RawSetting.text?, Option.filter, iterations, points]

theorem RuntimeSettings.read?_write (s : RuntimeSettings) : read? (s.write.map ofPair) = some s := by
  simp [read?, write, ofPair, ofPlain, RawSetting.field?, List.lookup_cons, RawSetting.natural?]

theorem LogSettings.read?_write (s : LogSettings) : read? (s.write.map ofPair) = some s := by
  simp [read?, write, ofPair, ofPlain, RawSetting.field?, List.lookup_cons, RawSetting.text?,
    RawSetting.bool?]

namespace Settings

/-- The lines before all headings. -/
def opening (s : Settings) : Group := writeOptional "trace_output" .text s.traceOutput

/-- The headed lines. -/
def groups (s : Settings) : List (String × Group) :=
  [("scheduling", s.scheduling.write), ("runtime", s.runtime.write), ("logging", s.logging.write)]

/-- Groups whose names are among different words have different words for names. -/
private theorem words_of_sublist {group : Group} (names : List String)
    (among : (group.map Prod.fst).Sublist names) (words : names.all isWord = true) (distinct : names.Nodup) :
    (∀ entry ∈ group, isWord entry.1 = true) ∧ (group.map Prod.fst).Nodup :=
  ⟨fun _ mem => List.all_eq_true.1 words _ (among.subset (List.mem_map_of_mem mem)),
    distinct.sublist among⟩

theorem words_opening (s : Settings) :
    (∀ entry ∈ s.opening, isWord entry.1 = true) ∧ (s.opening.map Prod.fst).Nodup := by
  refine words_of_sublist ["trace_output"] ?_ (by decide) (by decide)
  unfold opening
  cases s.traceOutput <;> simp [writeOptional]

theorem words_groups (s : Settings) : ∀ entry ∈ s.groups,
    (∀ value ∈ entry.2, isWord value.1 = true) ∧ (entry.2.map Prod.fst).Nodup := by
  intro entry mem
  simp only [groups, List.mem_cons, List.not_mem_nil, or_false] at mem
  rcases mem with rfl | rfl | rfl
  · refine words_of_sublist ["mode", "strategy", "iterations", "max_steps", "seed",
      "pct_change_points", "replay_trace"] ?_ (by decide) (by decide)
    simp only [SchedulingSettings.write]
    cases s.scheduling.seed <;> cases s.scheduling.replayTrace <;> simp [writeOptional]
  · exact words_of_sublist ["dequeue_policy", "generation"] (List.Sublist.refl _)
      (by decide) (by decide)
  · exact words_of_sublist ["level", "ansi", "json"] (List.Sublist.refl _)
      (by decide) (by decide)

theorem regular (s : Settings) : Toml.Regular s.opening s.groups where
  first := s.words_opening.1
  headings := by
    have words : ["scheduling", "runtime", "logging"].all isWord = true := by decide
    exact fun _ mem => List.all_eq_true.1 words _ (List.mem_map_of_mem mem)
  names entry mem := (s.words_groups entry mem).1
  outer := by
    unfold opening
    cases s.traceOutput <;> simp [groups, writeOptional]
  inner entry mem := (s.words_groups entry mem).2

/-- The tables of a file are read as the settings that were written to it. -/
theorem read?_opening_groups {s : Settings} (fits : s.Fits) :
    read? (s.opening.map ofPair ++ s.groups.map ofGroup) = some s := by
  obtain ⟨scheduling, runtime, logging, output⟩ := s
  have steered := SchedulingSettings.read?_write fits.iterations fits.pctChangePoints
  simp only at steered
  cases output <;>
    simp [read?, opening, groups, writeOptional, ofPair, ofGroup, ofPlain, RawSetting.field?,
      RawSetting.optional?, RawSetting.group?, RawSetting.text?, List.lookup_cons, steered,
      RuntimeSettings.read?_write, LogSettings.read?_write]

/-- There is room for all values of a file if there is for all numbers. -/
theorem fits_iff (s : Settings) : (s.opening ++ s.groups.flatMap (·.2)).all (·.2.fits) = true ↔
    ∀ n ∈ s.numbers, n < Nat.pow 2 63 := by
  obtain ⟨⟨mode, strategy, n, steps, seed, m, path⟩, runtime, logging, output⟩ := s
  cases seed <;> cases path <;> cases output <;>
    simp [opening, groups, numbers, SchedulingSettings.write, RuntimeSettings.write, LogSettings.write,
      writeOptional, Plain.fits]

/-- A number without room in a file keeps the file from being written. -/
theorem save_of_large {s : Settings} {n : Nat} (mem : n ∈ s.numbers) (large : Nat.pow 2 63 - 1 < n)
    (path : String) (writable : Bool) : s.save path writable = .error .tooLarge := by
  have none : s.file? = none := if_neg fun fits => by
    have small := s.fits_iff.1 fits n mem
    omega
  rw [save, none]

/-- Settings, unless there is a reason to refuse them. -/
def checked (s : Settings) : Except LoadError Settings :=
  match s.fault? with
  | some fault => .error (.refused fault)
  | none => .ok s

/-- A file that is written is read as the settings that were written to it. -/
theorem load_of_file? {s : Settings} (fits : s.Fits) {text : String} (written : s.file? = some text) :
    load (some text) [] = s.checked := by
  have parsed := Toml.parse?_of_file? s.regular written
  have layers : layers? (some text) [] =
      some (.table (s.opening.map ofPair ++ s.groups.map ofGroup)) := by
    simp [layers?, parsed, RawSetting.overlayFile_of_regular s.regular, Environment.overlay]
  simp only [load, layers, RawSetting.entries, read?_opening_groups fits]
  rfl

/-- Settings that come about by choices are saved unless a number among them has no room in a file, in
which case nothing is written. What is saved loads back as the same settings, or is refused for the first
fault that they have. -/
theorem saved_settings_load_back {start : Settings} (begins : start = {} ∨ start = .exploration)
    (choices : List Choice) (small : ∀ choice ∈ choices, choice.Fits) (path : String) :
    let s := choices.foldl choose start
    ((∃ n ∈ s.numbers, Nat.pow 2 63 - 1 < n) → ∀ writable, s.save path writable = .error .tooLarge) ∧
      ((∀ n ∈ s.numbers, n ≤ Nat.pow 2 63 - 1) →
        ∃ text, s.save path true = .ok text ∧ load (some text) [] = s.checked) := by
  intro s
  have fits : s.Fits := by
    refine Fits.foldl ?_ small
    rcases begins with rfl | rfl <;> exact ⟨by decide, by decide⟩
  refine ⟨fun ⟨_, mem, large⟩ => save_of_large mem large path, fun room => ?_⟩
  have all := s.fits_iff.2 fun n mem => Nat.lt_of_le_pred (by decide) (room n mem)
  have written : s.file? = some _ := if_pos all
  exact ⟨_, by rw [save, written]; rfl, load_of_file? fits written⟩

/-- Choices of texts that need different quotes. -/
def quotingChoices : List Choice :=
  [.replayTrace "it's \"new\"\\", .traceOutput "C:\\traces", .level "a=\"debug\"\n\x7f",
    .seed (Nat.pow 2 63 - 1), .json true]

/-- They load back, but not without any iteration, and not with a seed of 64 bits. -/
theorem saved_settings_load_back_quoting :
    (∃ text, (quotingChoices.foldl choose {}).save "run.toml" true = .ok text ∧
        load (some text) [] = .ok (quotingChoices.foldl choose {})) ∧
      (∃ text, ((quotingChoices ++ [Choice.iterations 0]).foldl choose {}).save "run.toml" true = .ok text ∧
        load (some text) [] = .error (.refused .noIterations)) ∧
      ((quotingChoices ++ [Choice.seed (Nat.pow 2 64 - 1)]).foldl choose {}).save "run.toml" true =
        .error .tooLarge := by
  have one := saved_settings_load_back (.inl rfl) quotingChoices
    (by simp [quotingChoices, Choice.Fits]) "run.toml"
  have two := saved_settings_load_back (.inl rfl) (quotingChoices ++ [.iterations 0])
    (by simp [quotingChoices, Choice.Fits]) "run.toml"
  have three := saved_settings_load_back (.inl rfl) (quotingChoices ++ [.seed (Nat.pow 2 64 - 1)])
    (by simp [quotingChoices, Choice.Fits]) "run.toml"
  exact ⟨one.2 (by decide), two.2 (by decide), three.1 (by decide) true⟩

end Settings

end SteeredActors
