import Gpq.Lifecycle.Cancellation
import Gpq.Lifecycle.Admissions
import Gpq.Lifecycle.Candidates
import Gpq.Lifecycle.Finality
import Gpq.Lifecycle.Exclusions
import Gpq.Lifecycle.Replies
import Gpq.Lifecycle.Retries
import Gpq.Lifecycle.Submission
import Gpq.Lifecycle.Capacity
import Gpq.Lifecycle.Discards
import Gpq.Lifecycle.EventLog
import Gpq.Lifecycle.Transfers
import Gpq.Lifecycle.History
import Gpq.Lifecycle.Planning
import Gpq.Lifecycle.Settings
import Gpq.Lifecycle.Registry
import Gpq.Lib.Ranking
import Gpq.Lifecycle.Selection
import Gpq.Domain.Sampling
import Gpq.Lifecycle.Plans
import Gpq.Worker.Executor
import Gpq.Worker.Infer
import Gpq.Lib.Occurrences
import Gpq.Lifecycle.Staging
import Gpq.Lib.Chunks
import Gpq.Lifecycle.Fetches
import Gpq.Lifecycle.Uploads
import Gpq.Lib.Keyset
import Gpq.Remote.Listing
import Gpq.Lifecycle.Listing
import Gpq.Lifecycle.Classification
import Gpq.Lifecycle.Contention
import Gpq.Lifecycle.Truncation
import Gpq.Lib.Effects
import Gpq.Worker.Publish
import Gpq.Lib.Lines
import Gpq.Lib.Utf8
import Gpq.Lifecycle.Publishing
import Gpq.Worker.Native
import Gpq.Lifecycle.NativeEvents
import Gpq.Lifecycle.Leases
import Gpq.Lib.Sweep
import Gpq.Lifecycle.Starvation
import Gpq.Lib.Search
import Gpq.Worker.Request
import Gpq.Lifecycle.Requests
import Gpq.Lifecycle.RequestHeads
import Gpq.Worker.Config
import Gpq.Worker.Devices
import Gpq.Lifecycle.Selectors
import Gpq.Lifecycle.Assignments
import Gpq.Lifecycle.DeviceClaims
import Gpq.Worker.Models
import Gpq.Lifecycle.ModelTrees
import Gpq.Lifecycle.ModelCache
import Gpq.Remote.Progress
import Gpq.Lifecycle.Progress
import Gpq.Lib.Routine
import Gpq.Worker.Pool
import Gpq.Lifecycle.PoolSlots
import Gpq.Lifecycle.PoolRuns
import Gpq.Lib.Crew
import Gpq.Worker.Store
import Gpq.Lifecycle.StoreRuns
import Gpq.Lifecycle.StoreScans
