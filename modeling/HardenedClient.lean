import HardenedClient.AcquireDelay
import HardenedClient.AcquireRun
import HardenedClient.Backoff
import HardenedClient.BreakerCounters
import HardenedClient.BreakerRecovery
import HardenedClient.BreakerRun
import HardenedClient.BreakerTriggers
import HardenedClient.CallRate
import HardenedClient.CallerCancellation
import HardenedClient.CanonicalKey
import HardenedClient.CircuitBreaker
import HardenedClient.Classification
import HardenedClient.Cli
import HardenedClient.Client.Arrivals
import HardenedClient.Client.Backing
import HardenedClient.Client.Claims
import HardenedClient.Client.Flights
import HardenedClient.Client.Frame
import HardenedClient.Client.Handling
import HardenedClient.Client.Ledger
import HardenedClient.Client.Lifecycle
import HardenedClient.Client.Moves
import HardenedClient.Client.Pool
import HardenedClient.Client.Records
import HardenedClient.Client.Recovery
import HardenedClient.Client.Replay
import HardenedClient.Client.RowKeys
import HardenedClient.Client.State
import HardenedClient.Client.Step
import HardenedClient.Client.Uptime
import HardenedClient.ClosedForm
import HardenedClient.CommandFrame
import HardenedClient.Config
import HardenedClient.Conservation
import HardenedClient.Custody
import HardenedClient.DeadLetterKeys
import HardenedClient.DeadLetterMove
import HardenedClient.DeadLetterReplay
import HardenedClient.Dedup
import HardenedClient.DiskMirror
import HardenedClient.DrainQuiescence
import HardenedClient.Durability
import HardenedClient.Errors
import HardenedClient.Execute
import HardenedClient.FailedStart
import HardenedClient.FailedSubmission
import HardenedClient.FieldOrder
import HardenedClient.FinalOutcome
import HardenedClient.Foundation.Flights
import HardenedClient.Foundation.History
import HardenedClient.Foundation.Journal
import HardenedClient.Foundation.KeyedTable
import HardenedClient.Foundation.Meter
import HardenedClient.Foundation.Readable
import HardenedClient.Foundation.Schedule
import HardenedClient.Foundation.SingleFlight
import HardenedClient.Foundation.Transition
import HardenedClient.Foundation.Utf16
import HardenedClient.GracefulStop
import HardenedClient.HostBreakers
import HardenedClient.HostIsolation
import HardenedClient.HostOverrides
import HardenedClient.Life
import HardenedClient.MergedRequests
import HardenedClient.MockServer
import HardenedClient.Models
import HardenedClient.OpenCircuit
import HardenedClient.OrphanRecovery
import HardenedClient.ProbeOutcome
import HardenedClient.PyFloat
import HardenedClient.PyKey
import HardenedClient.PyStr
import HardenedClient.PyValue
import HardenedClient.Queue
import HardenedClient.QueueOrder
import HardenedClient.RateLimiter
import HardenedClient.RecoveryOrder
import HardenedClient.RegistryRun
import HardenedClient.Rendering
import HardenedClient.ReplayAll
import HardenedClient.ReplayAllRun
import HardenedClient.ResponseHook
import HardenedClient.Retry
import HardenedClient.RetryBudget
import HardenedClient.RetryCounter
import HardenedClient.RetryDelay
import HardenedClient.RoundTrip
import HardenedClient.Served
import HardenedClient.SingleFlight
import HardenedClient.StartCompletion
import HardenedClient.Storage
import HardenedClient.StoreHistory
import HardenedClient.StoredIdentity
import HardenedClient.UnparsedRows
import HardenedClient.WaitOrder
import HardenedClient.WorkerSurvival
