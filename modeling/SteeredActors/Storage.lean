import SteeredActors.Json.Printer
import SteeredActors.Json.Reader
import SteeredActors.Outcome

/-!
# Stored forms

The texts in which identities, traces and bug reports are kept and passed on, with their readers.
-/

set_option autoImplicit false
set_option relaxedAutoImplicit false

namespace SteeredActors

namespace ActorId

/-- The stored form of an identity. -/
def encode (id : ActorId) : String := id.toJson.compact

/-- The identity that a text describes. -/
def decode? (s : String) : Option ActorId := Json.parse? s >>= ofJson?

end ActorId

namespace Trace

/-- The form in which a trace is written to a file. -/
def encode (trace : Trace) : String := Json.pretty (toJson trace)

/-- The form without any space. -/
def encodeCompact (trace : Trace) : String := Json.compact (toJson trace)

/-- The trace that a text describes. -/
def decode? (s : String) : Option Trace := Json.parse? s >>= ofJson?

end Trace

namespace BugReport

/-- The stored form of a report. -/
def encode (report : BugReport) : String := report.toJson.compact

/-- The report that a text describes. -/
def decode? (s : String) : Option BugReport := Json.parse? s >>= ofJson?

end BugReport

/-- Why a trace was not read or written. -/
inductive TraceError where
  /-- The file could not be used; the system gives the reason. -/
  | io (path reason : String)
  /-- The text describes no trace. -/
  | format
deriving DecidableEq, Repr

/-- The text for a trace file that could not be used. -/
def TraceError.message : TraceError → String
  | .io path reason => s!"Trace I/O failed for {Text.Quoted.encode path}: {reason}"
  | .format => "Malformed trace"

end SteeredActors
