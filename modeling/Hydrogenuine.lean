import Hydrogenuine.Support.Dict
import Hydrogenuine.Support.PyValue
import Hydrogenuine.Support.Machine
import Hydrogenuine.Core.Host
import Hydrogenuine.Gpp.Models
import Hydrogenuine.Gpp.Store
import Hydrogenuine.Core.Iam
import Hydrogenuine.Governance.CapabilityRegistry
import Hydrogenuine.Gpp.Engine
import Hydrogenuine.Gpp.Runs
import Hydrogenuine.Gpp.Verifier
import Hydrogenuine.Core.ReferenceHost
import Hydrogenuine.Ueak.Admission
import Hydrogenuine.Support.Stateful
import Hydrogenuine.Support.Book
import Hydrogenuine.Lease.Lifecycle
import Hydrogenuine.Support.Trilean
import Hydrogenuine.Lease.Policy
import Hydrogenuine.Lease.Truth
import Hydrogenuine.Lease.Truth
import Hydrogenuine.Support.HashChain
import Hydrogenuine.Lease.Stores
import Hydrogenuine.Lease.Evaluator
import Hydrogenuine.Lease.World
import Hydrogenuine.Lease.Authority
import Hydrogenuine.Lease.Delegation
import Hydrogenuine.Lease.Invalidation
import Hydrogenuine.Lease.Crossing
import Hydrogenuine.Lease.System
import Hydrogenuine.Lease.Effects
import Hydrogenuine.Lease.Entries
import Hydrogenuine.Lease.Authorization
import Hydrogenuine.Lease.Uses
import Hydrogenuine.Lease.Lifetime
import Hydrogenuine.Lease.Standing
import Hydrogenuine.Lease.Revocation
import Hydrogenuine.Lease.Withdrawal
import Hydrogenuine.Hal.Arbitration
import Hydrogenuine.Governance.PermitBinder
import Hydrogenuine.Ueak.CommitScaffold
import Hydrogenuine.Runtime.Handlers
import Hydrogenuine.Runtime.Commitment
import Hydrogenuine.Runtime.Bus
import Hydrogenuine.Runtime.BusLog
import Hydrogenuine.Runtime.BusRecovery
import Hydrogenuine.Runtime.Ingress
import Hydrogenuine.Ledger.Envelope
import Hydrogenuine.Support.Schema
import Hydrogenuine.Ledger.Writer
import Hydrogenuine.Ledger.Chain
import Hydrogenuine.Ledger.Concurrent
import Hydrogenuine.Ledger.Readers
import Hydrogenuine.Emergence.Lifecycle
import Hydrogenuine.Emergence.WakePath
import Hydrogenuine.TaskGraph.Scheduler
import Hydrogenuine.TaskGraph.Executor
import Hydrogenuine.TaskGraph.Moves
import Hydrogenuine.TaskGraph.Steps
import Hydrogenuine.TaskGraph.Termination
import Hydrogenuine.TaskGraph.Gating
import Hydrogenuine.TaskGraph.Attempts
import Hydrogenuine.TaskGraph.Loops
import Hydrogenuine.TaskGraph.Observations
import Hydrogenuine.TaskGraph.Pauses
import Hydrogenuine.TaskGraph.Budgets
import Hydrogenuine.TaskGraph.Caps
import Hydrogenuine.TaskGraph.LoopExits
import Hydrogenuine.TaskGraph.Transitions
import Hydrogenuine.TaskGraph.Escrow
import Hydrogenuine.Admission.Controller
import Hydrogenuine.Oea.Binding
import Hydrogenuine.Oea.BoundedExecutor
import Hydrogenuine.Oea.AtMostOnce
import Hydrogenuine.Support.DepthFirst
import Hydrogenuine.TaskGraph.Completion
import Hydrogenuine.TaskGraph.Undisturbed
import Hydrogenuine.Admission.Accounting
import Hydrogenuine.Admission.Matrix
import Hydrogenuine.Hal.Runtime
import Hydrogenuine.Hal.Scrutiny
import Hydrogenuine.Hal.Safety
import Hydrogenuine.Realtime.ApprovedRuns
import Hydrogenuine.Realtime.Event
import Hydrogenuine.Realtime.Scheduler
import Hydrogenuine.Realtime.AtLeastOnce
import Hydrogenuine.Realtime.Bus
import Hydrogenuine.Realtime.Delivery
import Hydrogenuine.Storage.AppendLog
import Hydrogenuine.Storage.Agreement
import Hydrogenuine.Trust.Quorum
import Hydrogenuine.Trust.Interleaving
import Hydrogenuine.Runtime.Tampering
import Hydrogenuine.Runtime.WorldState
import Hydrogenuine.Runtime.WorldInvariant
import Hydrogenuine.Admission.Singletons
import Hydrogenuine.Oea.SandboxDispatch
import Hydrogenuine.RiskBudget.Model
import Hydrogenuine.RiskBudget.Interleaving
import Hydrogenuine.OperatorQueue.Schema
import Hydrogenuine.OperatorQueue.Policy
import Hydrogenuine.OperatorQueue.Runtime
import Hydrogenuine.OperatorQueue.Refusals
import Hydrogenuine.OperatorQueue.Views
import Hydrogenuine.OperatorQueue.Discipline
import Hydrogenuine.OperatorQueue.Interleaving
import Hydrogenuine.OperatorQueue.StopPanic
import Hydrogenuine.Support.PaddedDecimal
import Hydrogenuine.WitnessJournal.Schema
import Hydrogenuine.WitnessJournal.HashChain
import Hydrogenuine.WitnessJournal.AnchorWriter
import Hydrogenuine.WitnessJournal.Verification
import Hydrogenuine.WitnessJournal.Runs
import Hydrogenuine.AutoApproval.Evaluator
import Hydrogenuine.Support.SlidingWindow
import Hydrogenuine.AutoApproval.Limits
import Hydrogenuine.Social.ReviewQueue
import Hydrogenuine.Social.Publishing
import Hydrogenuine.Social.Reviewed
import Hydrogenuine.Lease.Suspension
import Hydrogenuine.Lease.Allowance
import Hydrogenuine.Lease.Restriction
import Hydrogenuine.Lease.Lookup
import Hydrogenuine.Lease.Compiler
import Hydrogenuine.Lease.Containment
import Hydrogenuine.Lease.Window
import Hydrogenuine.Realtime.RunLeases
import Hydrogenuine.Realtime.LeaseExclusion
import Hydrogenuine.Ownership.Record
import Hydrogenuine.Ownership.Transaction
import Hydrogenuine.Ownership.CompareAndSet
import Hydrogenuine.Ownership.Protocol
import Hydrogenuine.Ownership.Rejections
import Hydrogenuine.Ownership.Baton
import Hydrogenuine.Gpp.OperatorAuthority
import Hydrogenuine.Support.Layering
import Hydrogenuine.TaskGraph.TopologicalOrder
import Hydrogenuine.Support.Worklist
import Hydrogenuine.TaskGraph.GateSkips
import Hydrogenuine.Support.Json
import Hydrogenuine.Oea.ReceiptLedger
import Hydrogenuine.Governance.ApprovalLoops
import Hydrogenuine.AutoApproval.Decisions
import Hydrogenuine.Oea.DispatchBinding
import Hydrogenuine.Lease.Encoding
import Hydrogenuine.Lease.Renewal
import Hydrogenuine.Lease.AuditLink
import Hydrogenuine.Runtime.ViewTransparency
import Hydrogenuine.Support.Record
import Hydrogenuine.TaskGraph.ConcurrencyCaps
import Hydrogenuine.TaskGraph.Encoding
import Hydrogenuine.TaskGraph.RunLock
import Hydrogenuine.Support.Heap
import Hydrogenuine.TaskGraph.Expression
import Hydrogenuine.TaskGraph.Evaluation
import Hydrogenuine.TaskGraph.ExpressionModes
import Hydrogenuine.TaskGraph.PathValidation
import Hydrogenuine.TaskGraph.OperandFold
import Hydrogenuine.TaskGraph.DispatcherCalls
import Hydrogenuine.TaskGraph.LoopContext
import Hydrogenuine.TaskGraph.NodeOrder
import Hydrogenuine.Support.HeapPath
import Hydrogenuine.TaskGraph.EvalWrites
import Hydrogenuine.TaskGraph.InPlace
import Hydrogenuine.Support.Metering
import Hydrogenuine.TaskGraph.RateLimiter
import Hydrogenuine.Support.ListedChains
import Hydrogenuine.TaskGraph.DelegationGraph
import Hydrogenuine.Hal.CandidateOrder
import Hydrogenuine.Ownership.ConflictDetection
import Hydrogenuine.Realtime.IdempotencyStore
import Hydrogenuine.Realtime.Schedule
import Hydrogenuine.Realtime.TimerSource
import Hydrogenuine.MemoryLedger.Ledger
import Hydrogenuine.Secrets.Redaction
import Hydrogenuine.TaskGraph.StateHistory
