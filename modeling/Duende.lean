import Duende.Trans.Interleave
import Duende.Num
import Duende.Search
import Duende.Trans.Repeats
import Duende.Policy.Jidoka
import Duende.Policy.CircuitBreaker
import Duende.Policy.History
import Duende.Policy.Interleaved
import Duende.Policy.Observer
import Duende.Policy.StuckOpen
import Duende.Policy.CoolDown
import Duende.Policy.Opening
import Duende.Core.Types
import Duende.Trans.Ask
import Duende.System
import Duende.Core.Config
import Duende.Core.Adapter
import Duende.Core.Pepita
import Duende.Core.Native
import Duende.Core.NativeStatus
import Duende.Core.NativeHandles
import Duende.Observe.Health
import Duende.Trans.Streak
import Duende.Observe.Outcomes
import Duende.Observe.Events
import Duende.Ublk.Control
import Duende.Ublk.Attribution
import Duende.Ublk.Cleanup
import Duende.Trans.Channel
import Duende.Trans.Keyed
import Duende.Trans.Ticket
import Duende.Core.Context
import Duende.Core.Manager
import Duende.Core.Shutdown
import Duende.Core.Lifecycle
import Duende.Observe.Isolation
import Duende.Trans.Ring
import Duende.Observe.History
import Duende.Observe.Arithmetic
import Duende.Observe.StatParse
import Duende.Observe.Independence
import Duende.Core.Wos
import Duende.Core.Services
import Duende.Platform.Adapter
import Duende.Platform.Wos
import Duende.Platform.Services
import Duende.Foreign
import Duende.Formats.Argv
import Duende.Formats.Xml
import Duende.Formats.Plist
import Duende.Platform.ContainerArgs
import Duende.Platform.LaunchdPlist
import Duende.Platform.Allocation
import Duende.Trans.Lock
import Duende.Trans.Simulation
import Duende.Core.Locked
import Duende.Core.Refinement
import Duende.Core.Waiting
import Duende.Core.Deadlock
import Duende.Formats.UnitWords
import Duende.Formats.UnitLines
import Duende.Formats.UnitFile
import Duende.Formats.Clauses
import Duende.Formats.Json
import Duende.Status.ExitCode
import Duende.Status.Listing
import Duende.Status.Spacing
import Duende.Status.Surroundings
import Duende.Names
import Duende.Platform.SystemdUnit
import Duende.Platform.UnitReading
import Duende.Rounding
import Duende.Platform.UnitLimits
import Duende.Limits
import Duende.Trans.Histogram
import Duende.Decimals
import Duende.Core.Backoff
import Duende.Policy.Limiter
import Duende.Trans.Ledger
import Duende.Core.Metrics
import Duende.Ublk.Helpers
import Duende.Observe.Tracer
import Duende.Observe.Anomalies
import Duende.Platform.NativePids
import Duende.Core.NativeStop
import Duende.Test.Harness
import Duende.Test.Chaos
import Duende.Detect
import Duende.Test.Load
import Duende.Test.Percentiles
import Duende.Test.Accounting
import Duende.Formats.CLayout
import Duende.Ublk.Encoding
import Duende.Status.LockedMemory
import Duende.Policy.Admission
import Duende.Trans.Potential
import Duende.Policy.Cgroups
import Duende.Ublk.Liveness
import Duende.Trans.Dialogue
import Duende.Delivery
import Duende.Core.Stop
import Duende.Core.WosTable
import Duende.Trans.Reader
import Duende.Core.Snapshot
import Duende.Status.Residency
import Duende.Core.LaunchdPlist
import Duende.Spawn
import Duende.Spawned
import Duende.Core.LaunchdJobs
import Duende.Test.Return
import Duende.Test.Processes
