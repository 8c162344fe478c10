import SteeredActors.Value

/-!
# Mailboxes

The queue of an actor together with its status. An event that arrives while the actor is idle wakes
it; one that arrives after it halted is dropped. Selection scans the queue in order of arrival: what
is discarded on the way is removed, what is skipped stays, and the first event to take ends the scan.
-/

set_option autoImplicit false
set_option relaxedAutoImplicit false

namespace SteeredActors

/-- What an actor is doing. -/
inductive ActorStatus where
  /-- Created; its first entry action has not run. -/
  | uninitialized
  | running
  /-- Nothing is selectable. -/
  | idle
  | halted
deriving DecidableEq, Repr

/-- The name of a status. -/
def ActorStatus.name : ActorStatus → String
  | .uninitialized => "Uninitialized"
  | .running => "Running"
  | .idle => "Idle"
  | .halted => "Halted"

/-- An event on its way, with the number of the rendezvous that waits for it. -/
structure Envelope where
  event : Event
  rendezvous : Option Nat
deriving Repr

/-- What became of an envelope on arrival. -/
inductive Arrival where
  /-- The actor has halted. -/
  | dropped
  | queued
  /-- Queued, and the actor was idle. -/
  | woke
deriving DecidableEq, Repr

/-- What selection does with a queued event. -/
inductive Verdict where
  | take
  | skip
  | discard
deriving DecidableEq, Repr

/-- What selection found. -/
inductive Selected where
  | event (envelope : Envelope)
  /-- Nothing, but the state handles the reserved event. -/
  | default
  /-- Nothing, and the actor is now idle. -/
  | idle
deriving Repr

/-- The queue and the status of an actor. -/
structure Mailbox where
  status : ActorStatus := .uninitialized
  queue : List Envelope := []
deriving Repr

namespace Mailbox

/-- An envelope arrives. -/
def enqueue (m : Mailbox) (envelope : Envelope) : Arrival × Mailbox :=
  match m.status with
  | .halted => (.dropped, m)
  | .idle => (.woke, ⟨.running, m.queue ++ [envelope]⟩)
  | .uninitialized | .running => (.queued, { m with queue := m.queue ++ [envelope] })

/-- The actor runs again; the answer is its status before. -/
def start (m : Mailbox) : ActorStatus × Mailbox :=
  match m.status with
  | .uninitialized | .idle => (m.status, { m with status := .running })
  | .running | .halted => (m.status, m)

/-- What a scan of the queue finds: the envelope taken, those discarded before it, and the rest. -/
structure Scan where
  taken : Option Envelope
  discarded : List Envelope
  remaining : List Envelope

/-- Scan envelopes in order of arrival. -/
def scan (verdict : EventType → Verdict) : List Envelope → Scan
  | [] => ⟨none, [], []⟩
  | envelope :: rest =>
    match verdict envelope.event.type with
    | .take => ⟨some envelope, [], rest⟩
    | .skip =>
      let s := scan verdict rest
      { s with remaining := envelope :: s.remaining }
    | .discard =>
      let s := scan verdict rest
      { s with discarded := envelope :: s.discarded }

/-- Select the next event. With nothing to take the actor goes idle, unless its state handles the
reserved event. -/
def dequeue (m : Mailbox) (verdict : EventType → Verdict) (hasDefault : Bool) :
    Selected × List Envelope × Mailbox :=
  let s := scan verdict m.queue
  match s.taken with
  | some envelope => (.event envelope, s.discarded, { m with queue := s.remaining })
  | none =>
    if hasDefault then (.default, s.discarded, { m with queue := s.remaining })
    else (.idle, s.discarded, ⟨.idle, s.remaining⟩)

/-- The actor has halted; the queue is handed out to be dropped. -/
def halt (m : Mailbox) : List Envelope × Mailbox := (m.queue, ⟨.halted, []⟩)

end Mailbox

end SteeredActors
