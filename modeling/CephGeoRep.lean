import CephGeoRep.Semantics.Machine
import CephGeoRep.Semantics.Observer
import CephGeoRep.Semantics.Program
import CephGeoRep.Semantics.Refinement
import CephGeoRep.Semantics.Replication
import CephGeoRep.Support.Stride
import CephGeoRep.Support.Balance
import CephGeoRep.Support.Striding
import CephGeoRep.Support.Shares
import CephGeoRep.Support.Stream
import CephGeoRep.Support.Trim
import CephGeoRep.Support.Split
import CephGeoRep.Support.CString
import CephGeoRep.Support.Pointer
import CephGeoRep.Support.Cut
import CephGeoRep.Support.Pattern
import CephGeoRep.Support.Ledger
import CephGeoRep.Support.FirstFree
import CephGeoRep.Data.Timespec
import CephGeoRep.Data.File
import CephGeoRep.Data.Numeral
import CephGeoRep.Data.Config
import CephGeoRep.Config.Parser
import CephGeoRep.Config.Lines
import CephGeoRep.Config.Locality
import CephGeoRep.Config.Reference
import CephGeoRep.Config.Assignments
import CephGeoRep.Config.Verify
import CephGeoRep.Config.Dump
import CephGeoRep.Config.Template
import CephGeoRep.Syncer.Syncer
import CephGeoRep.Syncer.SyncProcess
import CephGeoRep.Syncer.Child
import CephGeoRep.Syncer.Sync
import CephGeoRep.Syncer.Payload
import CephGeoRep.Syncer.Batches
import CephGeoRep.Syncer.Bookkeeping
import CephGeoRep.Syncer.Delivery
import CephGeoRep.Syncer.Failover
import CephGeoRep.Syncer.Snapshot
import CephGeoRep.Syncer.Pipe
import CephGeoRep.Syncer.Logs
import CephGeoRep.Syncer.Transfers
import CephGeoRep.Syncer.Programs
import CephGeoRep.Syncer.Relaunch
import CephGeoRep.Syncer.Lifetime
import CephGeoRep.Syncer.Memory
import CephGeoRep.Syncer.LoadBalance
import CephGeoRep.Syncer.Headroom
import CephGeoRep.Syncer.Effort
import CephGeoRep.Syncer.Targets
import CephGeoRep.Syncer.Tokens
import CephGeoRep.Syncer.Descriptors
import CephGeoRep.Crawler.LastRctime
import CephGeoRep.Crawler.DirRctime
import CephGeoRep.Crawler.TornWrite
import CephGeoRep.Crawler.Search
import CephGeoRep.Crawler.Exhaustive
import CephGeoRep.Crawler.Liveness
import CephGeoRep.Crawler.Routes
import CephGeoRep.Crawler.Marker
import CephGeoRep.Crawler.Filters
import CephGeoRep.Crawler.Poll
import CephGeoRep.Crawler.Recovery
import CephGeoRep.Crawler.PollMoves
import CephGeoRep.Crawler.Iteration
import CephGeoRep.Crawler.Pruned
import CephGeoRep.Crawler.Watermark
import CephGeoRep.Crawler.Quiescence
import CephGeoRep.Crawler.DryRun
import CephGeoRep.Crawler.SignalSafety
import CephGeoRep.Crawler.Rounds
import CephGeoRep.Crawler.Payloads
import CephGeoRep.Crawler.ArgMax
import CephGeoRep.Crawler.Snapshots
import CephGeoRep.Crawler.Status
import CephGeoRep.Crawler.ReadErrors
import CephGeoRep.Crawler.Seed
import CephGeoRep.Crawler.Silence
import CephGeoRep.Crawler.Replica
import CephGeoRep.Crawler.Ratchet
import CephGeoRep.Crawler.Convergence
import CephGeoRep.Crawler.S3Wrap
import CephGeoRep.Crawler.Startup
