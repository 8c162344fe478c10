import SteeredActors.Settings.Basic
import SteeredActors.Settings.Environment
import SteeredActors.Toml.Reader

/-!
# Loading settings

Settings are read generously: numbers, words and booleans stand for one another where they can,
names that are no settings are passed over, and what is not set has its default. What was read is
then checked.
-/

set_option autoImplicit false
set_option relaxedAutoImplicit false

namespace SteeredActors

/-! ## Values -/

namespace RawSetting

/-- The number that a text writes, a plus before it being allowed. -/
def decimal? (s : String) : Option Nat :=
  let ds :=
    match s.toList with
    | '+' :: rest => rest
    | cs => cs
  if ds.isEmpty || !ds.all Text.isDigit then none else some (Text.digitsValue ds)

/-- A number that is not negative and has at most 64 bits. -/
def natural? : RawSetting → Option Nat
  | .integer i => if 0 ≤ i then some i.toNat else none
  | .real x => some (x.toNatUpTo (Nat.pow 2 64 - 1))
  | .bool b => some b.toNat
  | .text s =>
    if s.toLower ∈ ["true", "on", "yes"] then some 1
    else if s.toLower ∈ ["false", "off", "no"] then some 0
    else (decimal? s).filter (· < Nat.pow 2 64)
  | .array => none
  | .table _ => none

/-- A number that is not negative and has at most 32 bits. -/
def small? (value : RawSetting) : Option Nat := value.natural?.filter (· < Nat.pow 2 32)

/-- A boolean. -/
def bool? : RawSetting → Option Bool
  | .bool b => some b
  | .integer i => some (i != 0)
  | .real x => some !x.isZero
  | .text s =>
    if s.toLower ∈ ["1", "true", "on", "yes"] then some true
    else if s.toLower ∈ ["0", "false", "off", "no"] then some false
    else none
  | .array => none
  | .table _ => none

/-- A text. -/
def text? : RawSetting → Option String
  | .text s => some s
  | .bool b => some (toString b)
  | .integer i => some (toString i)
  | .real x => some x.render
  | .array => none
  | .table _ => none

/-- One of several constants, by its word in any case. -/
def constant? {α : Type} (all : List α) (word : α → String) : RawSetting → Option α
  | .text s => all.find? fun a => word a == s.toLower
  | _ => none

/-- A setting in a table, with its value if it is not set. -/
def field? {α : Type} (entries : List (String × RawSetting)) (name : String)
    (read? : RawSetting → Option α) (unset : α) : Option α :=
  match entries.lookup name with
  | some value => read? value
  | none => some unset

/-- A setting that may be left out. -/
def optional? {α : Type} (entries : List (String × RawSetting)) (name : String)
    (read? : RawSetting → Option α) : Option (Option α) :=
  field? entries name (fun value => (read? value).map some) none

/-- A table of settings. -/
def group? {α : Type} (read? : List (String × RawSetting) → Option α) : RawSetting → Option α
  | .table entries => read? entries
  | _ => none

end RawSetting

open RawSetting (field? optional? group?)

/-! ## Tables -/

/-- The settings of scheduling. -/
def SchedulingSettings.read? (entries : List (String × RawSetting)) :
    Option SchedulingSettings := do
  let unset : SchedulingSettings := {}
  return {
    mode := ← field? entries "mode" (RawSetting.constant? Mode.all Mode.word) unset.mode
    strategy := ← field? entries "strategy"
      (RawSetting.constant? StrategyKind.all StrategyKind.word) unset.strategy
    iterations := ← field? entries "iterations" RawSetting.small? unset.iterations
    maxSteps := ← field? entries "max_steps" RawSetting.natural? unset.maxSteps
    seed := ← optional? entries "seed" RawSetting.natural?
    pctChangePoints := ← field? entries "pct_change_points" RawSetting.small?
      unset.pctChangePoints
    replayTrace := ← optional? entries "replay_trace" RawSetting.text? }

/-- The settings of the runtime. -/
def RuntimeSettings.read? (entries : List (String × RawSetting)) : Option RuntimeSettings := do
  let unset : RuntimeSettings := {}
  return {
    dequeuePolicy := ← field? entries "dequeue_policy"
      (RawSetting.constant? DequeuePolicy.all DequeuePolicy.word) unset.dequeuePolicy
    generation := ← field? entries "generation" RawSetting.natural? unset.generation }

/-- The settings of logs. -/
def LogSettings.read? (entries : List (String × RawSetting)) : Option LogSettings := do
  let unset : LogSettings := {}
  return {
    level := ← field? entries "level" RawSetting.text? unset.level
    ansi := ← field? entries "ansi" RawSetting.bool? unset.ansi
    json := ← field? entries "json" RawSetting.bool? unset.json }

namespace Settings

/-- All settings. -/
def read? (entries : List (String × RawSetting)) : Option Settings := do
  return {
    scheduling := ← field? entries "scheduling" (group? SchedulingSettings.read?) {}
    runtime := ← field? entries "runtime" (group? RuntimeSettings.read?) {}
    logging := ← field? entries "logging" (group? LogSettings.read?) {}
    traceOutput := ← optional? entries "trace_output" RawSetting.text? }

/-! ## Files -/

/-- Why settings were not loaded. -/
inductive LoadError where
  /-- There is no file, or its text is not that of a table. -/
  | unreadable
  /-- Some setting has a value that it cannot have. -/
  | unfitting
  /-- The settings would make a run meaningless. -/
  | refused (fault : SettingsFault)
deriving DecidableEq, Repr

/-- The text for settings that were not loaded. -/
def LoadError.message : LoadError → String
  | .unreadable => "Failed to build configuration"
  | .unfitting => "Failed to deserialize configuration"
  | .refused fault => fault.message

/-- What a file sets, if there is one and it has the form of a table, and what the environment sets
over it. -/
def layers? (file : Option String) (environment : List (String × String)) :
    Option RawSetting := do
  let entries ← Toml.parse? (← file)
  return Environment.overlay (RawSetting.overlayFile (.table []) entries) environment

/-- Load settings from the text of a file, if it could be read, and from the environment. -/
def load (file : Option String) (environment : List (String × String)) :
    Except LoadError Settings :=
  match layers? file environment with
  | none => .error .unreadable
  | some layers =>
    match read? layers.entries with
    | none => .error .unfitting
    | some settings =>
      match settings.fault? with
      | some fault => .error (.refused fault)
      | none => .ok settings

end Settings

end SteeredActors
