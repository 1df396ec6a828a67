import FieldCrypt.Json.Printer
import FieldCrypt.Json.Parser
import FieldCrypt.Cipher.Sealed
import FieldCrypt.Cipher.Blake3
import FieldCrypt.Broker.Request
import FieldCrypt.Error
import FieldCrypt.Routine.Interleaving
import FieldCrypt.Store.Table
import FieldCrypt.Store.Numbered
import FieldCrypt.Key.Cache
import FieldCrypt.Draws
import FieldCrypt.Broker.State
import FieldCrypt.Client.Basic
import FieldCrypt.Record.Memo
import FieldCrypt.Record.Sample
import FieldCrypt.Simulation
import FieldCrypt.Proofs.Routine.Effects
import FieldCrypt.Proofs.Routine.Crowd
import FieldCrypt.Proofs.Client.Effects
import FieldCrypt.Proofs.Context.Stage
import FieldCrypt.Proofs.Context.SingleKey
import FieldCrypt.Proofs.Routine.Invariant
import FieldCrypt.Proofs.Key.Faithful
import FieldCrypt.Proofs.Client.Transparency
import FieldCrypt.Proofs.Routine.Alike
import FieldCrypt.Proofs.Routine.Run
import FieldCrypt.Proofs.Routine.Holdings
import FieldCrypt.Proofs.Client.OneHop
import FieldCrypt.Proofs.Client.Actions
import FieldCrypt.Proofs.Client.Delivery
import FieldCrypt.Proofs.Client.Behalf
import FieldCrypt.Proofs.Record.Separate
import FieldCrypt.Proofs.Record.Slots
import FieldCrypt.Proofs.Record.Exact
import FieldCrypt.Proofs.Key.History
import FieldCrypt.Proofs.Key.Recall
import FieldCrypt.Proofs.Json.Members
import FieldCrypt.Proofs.Json.Text
import FieldCrypt.Proofs.Routine.Phases
import FieldCrypt.Proofs.Record.Wire
import FieldCrypt.Proofs.Record.Kind
import FieldCrypt.Proofs.Record.Sealing
import FieldCrypt.Proofs.Provider.Inverse
import FieldCrypt.Proofs.Provider.Unsealing
import FieldCrypt.Proofs.Service.Restore
import FieldCrypt.Proofs.Client.Named
import FieldCrypt.Proofs.Context.Named
import FieldCrypt.Proofs.Client.Naming
import FieldCrypt.Proofs.Context.Alone
import FieldCrypt.Proofs.Context.Queue
import FieldCrypt.Proofs.Context.Admission
import FieldCrypt.Proofs.Service.RoundTrip
import FieldCrypt.Proofs.Broker.Retrieve
import FieldCrypt.Proofs.Broker.Creation
import FieldCrypt.Proofs.Key.Move
import FieldCrypt.Proofs.Service.Migration
import FieldCrypt.Proofs.Service.Moving
import FieldCrypt.Proofs.Service.Operations
import FieldCrypt.Proofs.Context.Race
import FieldCrypt.Proofs.Service.Confluence
import FieldCrypt.Proofs.Service.Naming
import FieldCrypt.Proofs.Broker.Answered
import FieldCrypt.Proofs.Broker.History
import FieldCrypt.Proofs.Broker.MasterKeys
import FieldCrypt.Proofs.Broker.Authorizations
import FieldCrypt.Proofs.Broker.Events
import FieldCrypt.Proofs.Broker.Keys
import FieldCrypt.Proofs.Broker.Moves
import FieldCrypt.Proofs.Broker.SameTables
import FieldCrypt.Proofs.Broker.InPlace
import FieldCrypt.Proofs.Service.Wire
import FieldCrypt.Proofs.Context.Priming
import FieldCrypt.Proofs.Context.Contention
import FieldCrypt.Proofs.Json.Places
import FieldCrypt.Proofs.Record.Wording
import FieldCrypt.Proofs.Service.Wording
import FieldCrypt.Proofs.Routine.Notes
import FieldCrypt.Proofs.Routine.NotedCrowd
import FieldCrypt.Proofs.Client.Refusals
import FieldCrypt.Proofs.Service.Failures
import FieldCrypt.Proofs.Store.Ranking
import FieldCrypt.Proofs.Key.Latest
import FieldCrypt.Proofs.Key.Retention
import FieldCrypt.Proofs.Provider.Resealing
import FieldCrypt.Proofs.Routine.Outcome
import FieldCrypt.Proofs.Context.Passage
import FieldCrypt.Proofs.Service.Batch
import FieldCrypt.Proofs.Store.Order
import FieldCrypt.Proofs.Key.Eviction
import FieldCrypt.Proofs.Client.Failed
import FieldCrypt.Proofs.Provider.Marking
import FieldCrypt.Proofs.Key.Grammar
import FieldCrypt.Proofs.Broker.Lines
import FieldCrypt.Proofs.Service.Rendering
import FieldCrypt.Proofs.Record.FieldOrder
import FieldCrypt.Proofs.Service.FieldOrder
import FieldCrypt.Proofs.Broker.MasterKeyLists
import FieldCrypt.Proofs.Broker.Minting
import FieldCrypt.Proofs.Record.Parts
import FieldCrypt.Proofs.Broker.Grants
import FieldCrypt.Proofs.Broker.Bindings
