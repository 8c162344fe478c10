import SteeredActors.Settings.Basic
import SteeredActors.Text.Quoted
import SteeredActors.Toml.Writer

/-!
# Saving settings

Settings are written to a file in a fixed order, each in the table of its group. Settings without a
value are left out.
-/

set_option autoImplicit false
set_option relaxedAutoImplicit false

namespace SteeredActors

open Toml (Plain Group)

/-- A setting that may be left out. -/
def writeOptional {α : Type} (name : String) (write : α → Plain) (value : Option α) : Group :=
  (value.map fun value => (name, write value)).toList

/-- The lines of scheduling. -/
def SchedulingSettings.write (s : SchedulingSettings) : Group :=
  [("mode", .text s.mode.word), ("strategy", .text s.strategy.word),
    ("iterations", .number s.iterations), ("max_steps", .number s.maxSteps)]
    ++ writeOptional "seed" .number s.seed
    ++ [("pct_change_points", .number s.pctChangePoints)]
    ++ writeOptional "replay_trace" .text s.replayTrace

/-- The lines of the runtime. -/
def RuntimeSettings.write (s : RuntimeSettings) : Group :=
  [("dequeue_policy", .text s.dequeuePolicy.word), ("generation", .number s.generation)]

/-- The lines of logs. -/
def LogSettings.write (s : LogSettings) : Group :=
  [("level", .text s.level), ("ansi", .bool s.ansi), ("json", .bool s.json)]

namespace Settings

/-- The file that settings are saved to, unless some number is too large for one. -/
def file? (s : Settings) : Option String :=
  Toml.file? (writeOptional "trace_output" .text s.traceOutput)
    [("scheduling", s.scheduling.write), ("runtime", s.runtime.write),
      ("logging", s.logging.write)]

/-- Why settings were not saved. -/
inductive SaveError where
  /-- Some number is too large for a file. -/
  | tooLarge
  /-- The file could not be written. -/
  | unwritable (path : String)
deriving DecidableEq, Repr

/-- The text for settings that were not saved. -/
def SaveError.message : SaveError → String
  | .tooLarge => "Failed to serialize configuration"
  | .unwritable path => s!"Failed to write configuration to {Text.Quoted.encode path}"

/-- Save settings: the text to be written to a path that may turn out not to be writable. Nothing
is written if there is no text. -/
def save (s : Settings) (path : String) (writable : Bool) : Except SaveError String :=
  match s.file? with
  | none => .error .tooLarge
  | some text => if writable then .ok text else .error (.unwritable path)

end Settings

end SteeredActors
