import Justup.Lib.Tiling
import Justup.Lib.Transition
import Justup.Lib.Lines
import Justup.Lib.Locks
import Justup.Lib.Bisect
import Justup.Lib.Dict
import Justup.Lib.Grouping
import Justup.Lib.Merge
import Justup.Lib.Increasing
import Justup.Lib.MaximalRuns
import Justup.Store.Calendar
import Justup.Store.Line
import Justup.Store.Series
import Justup.Store.Segment
import Justup.Store.Prune
import Justup.Store.Compact
import Justup.Store.CompactScan
import Justup.Store.CompactPlan
import Justup.Store.CompactPublish
import Justup.Store.CompactRun
import Justup.Store.CompactInvariant
import Justup.Store.JsonLine
import Justup.Store.CompactSafe
import Justup.Store.CompactCrash
import Justup.Lib.Tail
import Justup.Store.Query
import Justup.Store.QueryTail
import Justup.Store.QueryCompacted
import Justup.Store.SnapshotReader
import Justup.Lib.Raising
import Justup.Lib.Retention
import Justup.Store.SeriesView
import Justup.Lib.Rollup
import Justup.Store.Rollup
import Justup.Store.TornAppend
import Justup.Store.Orderly
import Justup.Store.RollupPass
import Justup.Store.Housekeeping
import Justup.Lib.Table
import Justup.Db.Stamp
import Justup.Db.Datetime
import Justup.Db.TargetLock
import Justup.Alerts.Alert
import Justup.Alerts.Closed
import Justup.Alerts.MailTemplate
import Justup.Alerts.MailContext
import Justup.Alerts.MailStructure
import Justup.Dashboard.Grid
import Justup.Dashboard.Layouts
import Justup.Dashboard.Separate
import Justup.Dashboard.Agree
import Justup.Auth.Csrf
import Justup.Auth.CsrfProof
import Justup.Recipients.Store
import Justup.Recipients.Requests
import Justup.Recipients.Kept
import Justup.Recipients.NeverDropped
import Justup.Reports.Jobs
import Justup.Reports.Worker
import Justup.Reports.Told
import Justup.Reports.Ends
import Justup.Smtp.Errors
import Justup.Smtp.Client
import Justup.Smtp.Transport
import Justup.Smtp.Exchange
import Justup.Smtp.Fate
import Justup.Smtp.Truthful
import Justup.Lib.Savepoint
import Justup.Db.Transaction
import Justup.Restore.ApplyRestore
import Justup.Restore.Gates
import Justup.Restore.Exclusive
import Justup.Restore.AllOrNothing
import Justup.Spool.Policy
import Justup.Spool.Queue
import Justup.Spool.Claim
import Justup.Spool.Fate
import Justup.Spool.Workers
import Justup.Spool.Ownership
import Justup.Spool.Pacing
import Justup.Spool.Precedence
import Justup.Spool.Deliverable
import Justup.Alerts.Dispatch
import Justup.Alerts.DispatchRows
import Justup.Alerts.DispatchOnce
import Justup.Live.EventBus
import Justup.Live.Delivery
import Justup.Supervisor.Service
import Justup.Supervisor.Loop
import Justup.Supervisor.Restarts
import Justup.Supervisor.Alternation
import Justup.Supervisor.Snapshot
import Justup.Supervisor.Watching
import Justup.Lib.Fallible
import Justup.Incidents.Incident
import Justup.Incidents.Recovery
import Justup.Incidents.ServiceAlerts
import Justup.Incidents.Delivered
import Justup.Lib.Scanner
import Justup.Net.Ipaddress
import Justup.Net.AddressText
import Justup.Net.ClientIp
import Justup.Net.HttpStatus
import Justup.Net.ProxyChain
import Justup.Net.Spoofing
import Justup.Net.RateLimit
import Justup.Net.Budget
import Justup.Lib.Json
import Justup.Lib.CodePoints
import Justup.Lib.JsonCodec
import Justup.Lib.Spans
import Justup.Lib.Substitute
import Justup.Spool.PathKey
import Justup.Geo.Provider
import Justup.Geo.Breaker
import Justup.Geo.Throttled
import Justup.Lib.Runs
import Justup.Geo.Location
import Justup.Geo.RouteModel
import Justup.Geo.MapPoints
import Justup.Geo.Chain
import Justup.Geo.RoutesAgree
import Justup.Geo.HopRanges
import Justup.Geo.MeasuredPath
import Justup.Targets.Url
import Justup.Targets.Identity
import Justup.Targets.Store
import Justup.Targets.InStep
import Justup.Targets.Api
import Justup.Targets.Consistent
import Justup.Charts.StepLine
import Justup.Charts.Transitions
import Justup.Charts.Gaps
import Justup.Charts.Uptime
import Justup.Charts.Display
import Justup.Charts.Partition
import Justup.Charts.Downtime
import Justup.Charts.Resample
import Justup.Charts.Availability
import Justup.Charts.Cycles
import Justup.Charts.Capped
import Justup.Lib.Ranking
import Justup.Auth.Sessions
import Justup.Geo.Resolver
import Justup.Lib.Padded
import Justup.Restore.Releases
import Justup.Restore.Archive
import Justup.Restore.Extract
import Justup.Restore.Backup
import Justup.Restore.Manifest
import Justup.Store.Periods
import Justup.Quality.Gate
import Justup.Routes.Storage
import Justup.Routes.Loader
import Justup.Routes.Newer
import Justup.Lib.Obligation
import Justup.LiveClient.Client
import Justup.LiveClient.Steady
import Justup.LiveClient.Served
import Justup.LiveClient.Truthful
import Justup.Monitor.Runtime
import Justup.Monitor.Scheduler
import Justup.Monitor.Ledger
import Justup.Monitor.OneIncident
import Justup.Lib.History
import Justup.Monitor.Outage
import Justup.Monitor.AllClear
import Justup.Monitor.Detected
import Justup.Lib.Labels
import Justup.Geo.PopLookup
import Justup.Geo.PopCandidates
import Justup.Geo.PopBacked
import Justup.Geo.ReaderSwap
import Justup.Geo.NeverStale
import Justup.Geo.Facilities
import Justup.Geo.FacilityImport
import Justup.Geo.Interpolate
import Justup.Geo.Interpolated
import Justup.Geo.Timeline
