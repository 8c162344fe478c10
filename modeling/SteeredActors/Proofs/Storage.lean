import SteeredActors.Proofs.Json.Reading
import SteeredActors.Storage

/-!
# Stored forms are read back

Every field of an identity, a step or a report stands in its record, and the record is read from every
text that writes it. So what was stored is found again in all its fields, also in those that take no
part in equality, whatever layout it was stored in.
-/

set_option autoImplicit false
set_option relaxedAutoImplicit false

namespace SteeredActors

/-! ## Records -/

/-- The numbers of an identity fit their words. -/
structure ActorId.Fits (id : ActorId) : Prop where
  value : id.value ≤ maxWord
  generation : id.generation ≤ maxWord

/-- The numbers of a trace fit their words. -/
def Trace.Fits (trace : Trace) : Prop := ∀ step ∈ trace, step.chosen ≤ maxWord

/-- The numbers of a report fit their words. -/
structure BugReport.Fits (report : BugReport) : Prop where
  actor : ∀ id ∈ report.actor, id.Fits
  trace : Trace.Fits report.trace

theorem TraceStep.ofJson?_toJson {step : TraceStep} (fits : step.chosen ≤ maxWord) :
    ofJson? step.toJson = some step := by
  simp [ofJson?, toJson, Json.fields?, Json.membersNamed, Json.constant?, Json.word?,
    PointKind.ofName?_name, fits]

theorem Trace.ofJson?_toJson {trace : Trace} (fits : Fits trace) :
    ofJson? (toJson trace) = some trace := by
  unfold Fits at fits
  induction trace with
  | nil => rfl
  | cons step trace ih =>
    have rest := ih fun s mem => fits s (List.mem_cons_of_mem _ mem)
    simp only [ofJson?, toJson, List.map_cons] at rest ⊢
    simp [TraceStep.ofJson?_toJson (fits step List.mem_cons_self), rest]

theorem ActorId.ofJson?_toJson {id : ActorId} (fits : id.Fits) : ofJson? id.toJson = some id := by
  simp [ofJson?, toJson, Json.fields?, Json.membersNamed, Json.text?, Json.word?, fits.value,
    fits.generation]

/-- No identity is written as `null`, which stands for none. -/
theorem BugReport.actorOfJson?_toJson {actor : Option ActorId} (fits : ∀ id ∈ actor, id.Fits) :
    actorOfJson? (some ((actor.map ActorId.toJson).getD .null)) = some actor := by
  cases actor with
  | none => rfl
  | some id =>
    have read := ActorId.ofJson?_toJson (fits id rfl)
    simp [actorOfJson?, ActorId.toJson] at read ⊢
    exact read

theorem BugReport.ofJson?_toJson {report : BugReport} (fits : report.Fits) :
    ofJson? report.toJson = some report := by
  simp [ofJson?, toJson, Json.fields?, Json.membersNamed, Json.constant?, Json.text?,
    BugKind.ofName?_name, actorOfJson?_toJson fits.actor, Trace.ofJson?_toJson fits.trace]

/-! ## Texts -/

section Layouts

variable {cs : List Char}

/-- A trace is found in every text that writes its record. -/
theorem Trace.decode?_of_writes {trace : Trace} (fits : Fits trace)
    (written : Json.Writes (toJson trace) cs) : decode? (String.ofList cs) = some trace := by
  simp [decode?, Json.parse?_of_writes written, ofJson?_toJson fits]

theorem ActorId.decode?_of_writes {id : ActorId} (fits : id.Fits)
    (written : Json.Writes id.toJson cs) : decode? (String.ofList cs) = some id := by
  simp [decode?, Json.parse?_of_writes written, ofJson?_toJson fits]

theorem BugReport.decode?_of_writes {report : BugReport} (fits : report.Fits)
    (written : Json.Writes report.toJson cs) : decode? (String.ofList cs) = some report := by
  simp [decode?, Json.parse?_of_writes written, ofJson?_toJson fits]

end Layouts

/-- What is stored is read back in every field, from either layout. -/
theorem stored_forms_read_back {trace : Trace} {id : ActorId} {report : BugReport}
    (words : Trace.Fits trace) (numbers : id.Fits) (fits : report.Fits) :
    Trace.decode? (Trace.encode trace) = some trace ∧
      Trace.decode? (Trace.encodeCompact trace) = some trace ∧
      ActorId.decode? id.encode = some id ∧
      BugReport.decode? report.encode = some report :=
  ⟨Trace.decode?_of_writes words (Json.writes_pretty 0 _),
    Trace.decode?_of_writes words (Json.writes_compact _),
    ActorId.decode?_of_writes numbers (Json.writes_compact _),
    BugReport.decode?_of_writes fits (Json.writes_compact _)⟩

/-- An identity whose texts hold quotes, controls and a character beyond the basic plane. -/
def awkwardId : ActorId := ⟨maxWord, "\"\\\n\x00\x7f", "é/🦀", "", maxWord⟩

/-- A report on it, after a choice of the largest word. -/
def awkwardReport : BugReport :=
  ⟨.unhandledEvent, "no\tstate \x1b", some awkwardId, [⟨.defaultEvent, 0⟩, ⟨.intChoice, maxWord⟩]⟩

/-- Nothing is lost to escapes or to the size of numbers. -/
theorem stored_forms_read_back_escaping :
    awkwardReport.Fits ∧
      Trace.decode? (Trace.encode awkwardReport.trace) = some awkwardReport.trace ∧
      Trace.decode? (Trace.encodeCompact awkwardReport.trace) = some awkwardReport.trace ∧
      ActorId.decode? awkwardId.encode = some awkwardId ∧
      BugReport.decode? awkwardReport.encode = some awkwardReport := by
  have numbers : awkwardId.Fits := ⟨Nat.le_refl _, Nat.le_refl _⟩
  have words : Trace.Fits awkwardReport.trace := by simp [Trace.Fits, awkwardReport]
  have fits : awkwardReport.Fits := ⟨by simpa [awkwardReport] using numbers, words⟩
  exact ⟨fits, stored_forms_read_back words numbers fits⟩

end SteeredActors
