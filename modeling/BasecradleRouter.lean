import BasecradleRouter.Breaker
import BasecradleRouter.Breaker.Bound
import BasecradleRouter.Breaker.Isolation
import BasecradleRouter.Breaker.Reference
import BasecradleRouter.Breaker.Standing
import BasecradleRouter.Breaker.Thinning
import BasecradleRouter.Breaker.Timers
import BasecradleRouter.Claims
import BasecradleRouter.Claims.Edges
import BasecradleRouter.Coalesce
import BasecradleRouter.Concurrency
import BasecradleRouter.Config
import BasecradleRouter.Config.Registry
import BasecradleRouter.Config.Resolving
import BasecradleRouter.Config.Tunables
import BasecradleRouter.Daemon
import BasecradleRouter.Daemon.Delivered
import BasecradleRouter.Daemon.Depth
import BasecradleRouter.Daemon.Drained
import BasecradleRouter.Dedup
import BasecradleRouter.Dedup.Live
import BasecradleRouter.Evidence
import BasecradleRouter.Evidence.AtomicWrite
import BasecradleRouter.Evidence.Coherence
import BasecradleRouter.Evidence.Counts
import BasecradleRouter.Evidence.Limited
import BasecradleRouter.Evidence.Loading
import BasecradleRouter.Evidence.Migration
import BasecradleRouter.Evidence.Recovery
import BasecradleRouter.Evidence.Restart
import BasecradleRouter.Evidence.Rows
import BasecradleRouter.Evidence.Stored
import BasecradleRouter.Evidence.Swapped
import BasecradleRouter.Evidence.Swept
import BasecradleRouter.Evidence.Viewed
import BasecradleRouter.Lib.Binary64
import BasecradleRouter.Lib.Checked
import BasecradleRouter.Lib.Datetime
import BasecradleRouter.Lib.Dict
import BasecradleRouter.Lib.Directory
import BasecradleRouter.Lib.Enclosed
import BasecradleRouter.Lib.Fifo
import BasecradleRouter.Lib.Filesystem
import BasecradleRouter.Lib.Forest
import BasecradleRouter.Lib.Gaps
import BasecradleRouter.Lib.Glob
import BasecradleRouter.Lib.Json
import BasecradleRouter.Lib.JsonCodec
import BasecradleRouter.Lib.JsonFault
import BasecradleRouter.Lib.JsonKept
import BasecradleRouter.Lib.JsonLayout
import BasecradleRouter.Lib.JsonPoints
import BasecradleRouter.Lib.JsonRoundTrip
import BasecradleRouter.Lib.JsonSorted
import BasecradleRouter.Lib.JsonString
import BasecradleRouter.Lib.Least
import BasecradleRouter.Lib.Lru
import BasecradleRouter.Lib.Merging
import BasecradleRouter.Lib.Occurs
import BasecradleRouter.Lib.OrderedDict
import BasecradleRouter.Lib.Pattern
import BasecradleRouter.Lib.Py
import BasecradleRouter.Lib.PyFloat
import BasecradleRouter.Lib.PyStr
import BasecradleRouter.Lib.PyText
import BasecradleRouter.Lib.PyValue
import BasecradleRouter.Lib.QuoteParity
import BasecradleRouter.Lib.Retained
import BasecradleRouter.Lib.RollingWindow
import BasecradleRouter.Lib.Runs
import BasecradleRouter.Lib.Runtime
import BasecradleRouter.Lib.Search
import BasecradleRouter.Lib.Sequence
import BasecradleRouter.Lib.Stamped
import BasecradleRouter.Lib.TicketLine
import BasecradleRouter.Lib.TokenLine
import BasecradleRouter.Lib.Total
import BasecradleRouter.Lib.Transition
import BasecradleRouter.Logfmt
import BasecradleRouter.Logfmt.Reading
import BasecradleRouter.Models
import BasecradleRouter.Pipeline.Accept
import BasecradleRouter.Pipeline.Agreement
import BasecradleRouter.Pipeline.Apart
import BasecradleRouter.Pipeline.Bracket
import BasecradleRouter.Pipeline.Coalescing
import BasecradleRouter.Pipeline.Dedup
import BasecradleRouter.Pipeline.Deduped
import BasecradleRouter.Pipeline.Execute
import BasecradleRouter.Pipeline.Exits
import BasecradleRouter.Pipeline.Fates
import BasecradleRouter.Pipeline.Gates
import BasecradleRouter.Pipeline.Interlock
import BasecradleRouter.Pipeline.Leaves
import BasecradleRouter.Pipeline.Probes
import BasecradleRouter.Pipeline.Record
import BasecradleRouter.Pipeline.Recorded
import BasecradleRouter.Pipeline.Router
import BasecradleRouter.Pipeline.Runs
import BasecradleRouter.Pipeline.Sinks
import BasecradleRouter.Pipeline.Tries
import BasecradleRouter.Pipeline.Verified
import BasecradleRouter.ProbeAck
import BasecradleRouter.ProbeRun
import BasecradleRouter.ProbeRun.Crossing
import BasecradleRouter.ProbeRun.Verdicts
import BasecradleRouter.Routes.Arrivals
import BasecradleRouter.Routes.Authorised
import BasecradleRouter.Routes.Base
import BasecradleRouter.Routes.Basecradle
import BasecradleRouter.Routes.Binding
import BasecradleRouter.Routes.Crowded
import BasecradleRouter.Routes.Declared
import BasecradleRouter.Routes.Github
import BasecradleRouter.Routes.Keyring
import BasecradleRouter.Routes.Ledgers
import BasecradleRouter.Routes.Probe
import BasecradleRouter.Routes.Provisioned
import BasecradleRouter.Routes.References
import BasecradleRouter.Routes.Registered
import BasecradleRouter.Routes.Registry
import BasecradleRouter.Routes.Stamps
import BasecradleRouter.Routes.Ties
import BasecradleRouter.Routes.Warm
import BasecradleRouter.Scheduler.Coherent
import BasecradleRouter.Scheduler.Fairness
import BasecradleRouter.Scheduler.Notify
import BasecradleRouter.Scheduler.Refused
import BasecradleRouter.Scheduler.Safety
import BasecradleRouter.Scheduler.State
import BasecradleRouter.Scheduler.System
import BasecradleRouter.SecurityScan
import BasecradleRouter.SecurityScan.Applied
import BasecradleRouter.SecurityScan.Components
import BasecradleRouter.SecurityScan.Marker
import BasecradleRouter.SecurityScan.Plans
import BasecradleRouter.SecurityScan.Quiet
import BasecradleRouter.SecurityScan.Refiling
import BasecradleRouter.Server
import BasecradleRouter.Server.Answers
import BasecradleRouter.StopWake
import BasecradleRouter.StopWake.Discipline
import BasecradleRouter.StopWake.Fields
import BasecradleRouter.StopWake.Members
import BasecradleRouter.StopWake.Relays
import BasecradleRouter.StopWake.Survivors
import BasecradleRouter.Vector
import BasecradleRouter.Vector.Detail
import BasecradleRouter.Wake
import BasecradleRouter.Wake.Invocation
import BasecradleRouter.Wake.Options
import BasecradleRouter.WakeLock
import BasecradleRouter.WakeLock.Inspect
import BasecradleRouter.WakeRunner
import BasecradleRouter.WakeRunner.AgentEnv
import BasecradleRouter.WakeRunner.Agreement
import BasecradleRouter.WakeRunner.Boundary
import BasecradleRouter.WakeRunner.FarSide
