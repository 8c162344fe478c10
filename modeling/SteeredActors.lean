import SteeredActors.Controller.Session
import SteeredActors.Descriptor.Registry
import SteeredActors.Exploration
import SteeredActors.LogFilter
import SteeredActors.Production
import SteeredActors.Proofs.Selection
import SteeredActors.Proofs.World.Calls
import SteeredActors.Proofs.World.Rest
import SteeredActors.Script.Meaning
import SteeredActors.Settings.Reader
import SteeredActors.Settings.Writer
import SteeredActors.Storage
import SteeredActors.Strategy.Choice
import SteeredActors.Value
import SteeredActors.Proofs.Replay.Renaming
import SteeredActors.Proofs.Controller.Steering
import SteeredActors.Proofs.Descriptor.WellFormed
import SteeredActors.Proofs.Fates
import SteeredActors.Proofs.Replay.Equivariance
import SteeredActors.Proofs.Replay.Mirror
import SteeredActors.Proofs.Replay.Reproduction
import SteeredActors.Proofs.World.Assurance
import SteeredActors.Proofs.World.Conservation
import SteeredActors.Proofs.World.Lookups
import SteeredActors.Proofs.World.Reports
import SteeredActors.Proofs.Controller.Accounting
import SteeredActors.Proofs.World.Linearizability
import SteeredActors.Proofs.World.Monitoring
import SteeredActors.Proofs.Replay.History
import SteeredActors.Proofs.World.Cancellation
import SteeredActors.Proofs.World.Clockwork
import SteeredActors.Proofs.World.Aftermath
import SteeredActors.Proofs.World.Drift
import SteeredActors.Proofs.World.Roster
import SteeredActors.Proofs.Identities
import SteeredActors.Proofs.World.Bound
import SteeredActors.Proofs.World.Notices
import SteeredActors.Proofs.World.Unheard
import SteeredActors.Proofs.World.Obedience
import SteeredActors.Proofs.Allocation
import SteeredActors.Proofs.Storage
import SteeredActors.Proofs.Settings.Saved
import SteeredActors.Proofs.Json.Reading
import SteeredActors.Proofs.World.Rejections
import SteeredActors.Proofs.Strategy.Priorities
import SteeredActors.Proofs.Replay.Adherence
import SteeredActors.Proofs.Descriptor.Extension
import SteeredActors.Proofs.Descriptor.Provenance
import SteeredActors.Proofs.Controller.Truncation
import SteeredActors.Proofs.Strategy.Contract
import SteeredActors.Proofs.Descriptor.Subscriptions
import SteeredActors.Proofs.World.Selections
import SteeredActors.Proofs.World.Subscriptions
import SteeredActors.Proofs.Strategy.Renewal
