import Faabric.Lib.MapTotal
import Faabric.Lib.GuardedRun
import Faabric.Planner.Results
import Faabric.Feasibility
import Faabric.Lib.Ledger
import Faabric.Planner.Accounting
import Faabric.Planner.Books
import Faabric.Planner.Growing
import Faabric.Planner.CallEffect
import Faabric.Planner.ResultEffect
import Faabric.Planner.LedgerSteps
import Faabric.Planner.FreshStart
import Faabric.Planner.SlotConservation
import Faabric.Planner.HostChurn
import Faabric.Planner.PolicyAgreement
import Faabric.Planner.Atomicity
import Faabric.Planner.Reply
import Faabric.Client.MessageResults
import Faabric.Client.Delivery
import Faabric.Planner.Pollers
import Faabric.Rpc.ContextRegistry
import Faabric.Rpc.ResponseRouting
import Faabric.Rpc.Context
import Faabric.Lib.MapFill
import Faabric.Rpc.Restore
import Faabric.Rpc.Transparency
import Faabric.Rpc.RequestIds
import Faabric.Rpc.CallerIsolation
import Faabric.Rpc.Sections
import Faabric.Rpc.Finality
import Faabric.Rpc.Server
import Faabric.Rpc.ServiceMigration
import Faabric.Rpc.InvocationConservation
import Faabric.Lib.Links
import Faabric.Lib.Trail
import Faabric.Lib.Transit
import Faabric.Rpc.ForwardingRoutes
import Faabric.Rpc.CallerMigration
import Faabric.Rpc.ResponseFollows
import Faabric.Planner.ServiceRegistry
import Faabric.Planner.Housing
import Faabric.Planner.TenantIsolation
import Faabric.Planner.OpenMpThreads
import Faabric.Planner.OpenMpReservations
import Faabric.Rpc.Shutdown
import Faabric.Lib.Bytes
import Faabric.Util.Delta
import Faabric.Util.DeltaSafety
import Faabric.Util.DeltaRoundTrip
import Faabric.Util.Snapshot
import Faabric.Util.ArrayDiffs
import Faabric.Util.SnapshotDiffs
import Faabric.Util.GapFilling
import Faabric.Util.DiffBounds
import Faabric.Util.TrackedChanges
import Faabric.Util.QueuedDiffs
import Faabric.Util.SnapshotMerge
import Faabric.Util.TypedMerge
import Faabric.Client.SnapshotPush
import Faabric.Scheduler.Executors
import Faabric.Scheduler.ThreadExecutors
import Faabric.Transport.GroupMappings
import Faabric.Transport.EndpointCounts
import Faabric.Transport.GroupLock
import Faabric.Transport.LockWaiters
import Faabric.Transport.Barrier
import Faabric.Transport.OrderedMessages
import Faabric.Planner.Dispatch
import Faabric.Planner.Freezing
import Faabric.Planner.Resuming
import Faabric.Planner.FreezeCycle
import Faabric.Transport.ControlMessages
import Faabric.Lib.Network
import Faabric.Lib.Blocks
import Faabric.Mpi.Collectives
import Faabric.Mpi.DataMovement
import Faabric.Mpi.Programs
import Faabric.Mpi.World
import Faabric.Lib.Combine
import Faabric.Mpi.Reductions
import Faabric.Mpi.AsyncReceives
import Faabric.Mpi.ReceivePaths
import Faabric.Lib.Agreement
import Faabric.Lib.Packing
import Faabric.Migration
import Faabric.MigrationMinimiser
import Faabric.PlacementSoundness
import Faabric.AppPlacements
import Faabric.HostOrder
import Faabric.BinPackOptimality
import Faabric.CompactOptimality
import Faabric.SpotVerdicts
import Faabric.ForcedRotation
import Faabric.HostRecommendation
import Faabric.Planner.ServiceDiscovery
import Faabric.Util.Gids
import Faabric.Mpi.Cartesian
import Faabric.State.Chunks
