import Payflow.Lib.PrefixCode
import Payflow.Lib.Reading
import Payflow.Lib.Calendar
import Payflow.Lib.Exposition
import Payflow.Lib.Protocol
import Payflow.Lib.Local
import Payflow.Lib.Trail
import Payflow.Lib.Removal
import Payflow.Lib.Steps
import Payflow.Lib.Knowledge
import Payflow.Lib.Records
import Payflow.Lib.Attempts
import Payflow.Lib.Batches
import Payflow.Lib.Indexed
import Payflow.Lib.Leaves
import Payflow.Lib.CallSites
import Payflow.Lib.LockOrder
import Payflow.Lib.Solo
import Payflow.Lib.Progress
import Payflow.Model.Provider
import Payflow.Model.Publisher
import Payflow.Model.Network
import Payflow.Model.RateLimit
import Payflow.Model.Simulator
import Payflow.Model.Metrics
import Payflow.Spec.Footprint
import Payflow.Spec.Events
import Payflow.Spec.RefundProtocol
import Payflow.Spec.Canonical
import Payflow.Spec.Creation
import Payflow.Spec.RefundLookup
import Payflow.Spec.Ledger
import Payflow.Spec.Enqueue
import Payflow.Spec.Delivery
import Payflow.Spec.OutboxInserts
import Payflow.Spec.Publishing
import Payflow.Spec.Tasks
import Payflow.Spec.StreamReader
import Payflow.Network.View
import Payflow.Network.Programs
import Payflow.Network.Commits
import Payflow.Network.Handlers
import Payflow.Network.Exchange
import Payflow.Network.Attempts
import Payflow.Safety.OverRefund
import Payflow.Safety.Lifecycle
import Payflow.Safety.InFlight
import Payflow.Safety.RefundCompletion
import Payflow.Safety.PaymentIdempotency
import Payflow.Safety.RefundIdempotency
import Payflow.Safety.RefundReplay
import Payflow.Safety.FullRefund
import Payflow.Safety.RealCapture
import Payflow.Safety.ChargedOnce
import Payflow.Safety.RefundAgreement
import Payflow.Safety.Acknowledged
import Payflow.Safety.Ledger
import Payflow.Safety.OutboxRows
import Payflow.Safety.Capture
import Payflow.Safety.Webhooks
import Payflow.Safety.Publication
import Payflow.Safety.ExactlyOnce
import Payflow.Safety.PublicationOrder
import Payflow.Safety.Balance
import Payflow.Safety.Batch
import Payflow.Safety.Coverage
import Payflow.Safety.Deadlock
import Payflow.Safety.Landing
import Payflow.Safety.RateLimit
import Payflow.Safety.Redelivery
import Payflow.Safety.RefundLedger
import Payflow.Safety.RightPayment
import Payflow.Safety.Independence
import Payflow.Safety.Stranded
import Payflow.Safety.PaymentLock
import Payflow.Safety.Migrations
import Payflow.Safety.Storable
import Payflow.Safety.WebhookInput
import Payflow.Safety.EventOrder
import Payflow.Safety.Retries
import Payflow.Safety.Quiescence
import Payflow.Safety.Replica
import Payflow.Safety.PaymentRecord
import Payflow.Safety.TaskResults
import Payflow.Safety.RefundHistory
import Payflow.Safety.Recovery
import Payflow.Safety.StreamEntries
import Payflow.Safety.Draining
import Payflow.Safety.Metrics
