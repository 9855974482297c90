import Laplace.Machine.Allocator
import Laplace.Machine.Attribution
import Laplace.Machine.LogicalClock
import Laplace.Machine.MaxQueue
import Laplace.Machine.Overlay
import Laplace.Machine.Program
import Laplace.Machine.Refinement
import Laplace.Machine.Run
import Laplace.Machine.Script
import Laplace.Machine.WaitOrder
import Laplace.Machine.Wrapping
import Laplace.Model.AsyncLocks
import Laplace.Model.BroadcastRing
import Laplace.Model.CaptureSession
import Laplace.Model.Cells
import Laplace.Model.ChannelRuns
import Laplace.Model.ClientRuns
import Laplace.Model.CloudSender
import Laplace.Model.EventDump
import Laplace.Model.EventQueue
import Laplace.Model.ExclusiveLocks
import Laplace.Model.FutureRuns
import Laplace.Model.Harness
import Laplace.Model.HarnessSpec
import Laplace.Model.HookChanges
import Laplace.Model.IdAllocation
import Laplace.Model.LegacyHarness
import Laplace.Model.LockPrograms
import Laplace.Model.LockRuns
import Laplace.Model.ModelRewrite
import Laplace.Model.NotifyRuns
import Laplace.Model.OneshotRuns
import Laplace.Model.ProbeWire
import Laplace.Model.ProjectConfig
import Laplace.Model.Reference
import Laplace.Model.SemaphoreRuns
import Laplace.Model.SovereignContext
import Laplace.Model.StdLocks
import Laplace.Model.Syntax
import Laplace.Model.TaskCompletion
import Laplace.Model.Tasks
import Laplace.Model.Tenant
import Laplace.Model.Timers
import Laplace.Model.Tracing
import Laplace.Model.TrackedDerive
import Laplace.Model.TrackedSemaphore
import Laplace.Model.VerifyTest
import Laplace.Soundness.AbbaExactness
import Laplace.Soundness.AliasSites
import Laplace.Soundness.AliasTable
import Laplace.Soundness.AliasTransparency
import Laplace.Soundness.AsyncExclusion
import Laplace.Soundness.Boundaries
import Laplace.Soundness.BroadcastTrace
import Laplace.Soundness.Capture
import Laplace.Soundness.CellLinearity
import Laplace.Soundness.CellReports
import Laplace.Soundness.ChannelCausality
import Laplace.Soundness.ConfigSearch
import Laplace.Soundness.ContextConsistency
import Laplace.Soundness.Counterparts
import Laplace.Soundness.Coverage
import Laplace.Soundness.DeadlockPrediction
import Laplace.Soundness.DetectorAgreement
import Laplace.Soundness.DumpNames
import Laplace.Soundness.HoldAccounting
import Laplace.Soundness.HookHandovers
import Laplace.Soundness.IdRaces
import Laplace.Soundness.LamportClock
import Laplace.Soundness.LegacyProgress
import Laplace.Soundness.Lifecycle
import Laplace.Soundness.LockBalance
import Laplace.Soundness.LockCalls
import Laplace.Soundness.LockGrants
import Laplace.Soundness.LockHierarchy
import Laplace.Soundness.LockOrder
import Laplace.Soundness.LockOrderThreads
import Laplace.Soundness.LockOverlap
import Laplace.Soundness.LockScripts
import Laplace.Soundness.ModuleCoverage
import Laplace.Soundness.NameResolution
import Laplace.Soundness.NotifyCauses
import Laplace.Soundness.OneshotClosure
import Laplace.Soundness.OutlivingThreads
import Laplace.Soundness.PathShape
import Laplace.Soundness.PermitLedger
import Laplace.Soundness.QueueOrder
import Laplace.Soundness.ReaderCycles
import Laplace.Soundness.ReleaseAttribution
import Laplace.Soundness.RewriteFrame
import Laplace.Soundness.RewriteStability
import Laplace.Soundness.SemaphoreEvents
import Laplace.Soundness.SenderConservation
import Laplace.Soundness.Shadowing
import Laplace.Soundness.Sites
import Laplace.Soundness.SpawnModes
import Laplace.Soundness.StaleHooks
import Laplace.Soundness.TaskTrace
import Laplace.Soundness.TaskWakeups
import Laplace.Soundness.TenantQuota
import Laplace.Soundness.TestOrder
import Laplace.Soundness.TestOutcomes
import Laplace.Soundness.TestRealization
import Laplace.Soundness.TestRefinement
import Laplace.Soundness.TestRoles
import Laplace.Soundness.TestSequence
import Laplace.Soundness.ThreadIds
import Laplace.Soundness.ThreadTraces
import Laplace.Soundness.TimerBurst
import Laplace.Soundness.TimerRegistrations
import Laplace.Soundness.TimerSchedule
import Laplace.Soundness.TrackedFields
import Laplace.Soundness.Transparency
import Laplace.Soundness.WireRoundTrip
