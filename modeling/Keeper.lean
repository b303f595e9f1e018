import Keeper.Coordination.AccountGate
import Keeper.Coordination.Preemption
import Keeper.Core.ContentHash
import Keeper.Cron.Acknowledgements
import Keeper.Destinations.CalDavReadAgreement
import Keeper.Destinations.GoogleBatch
import Keeper.Destinations.GoogleCopy
import Keeper.Destinations.GoogleReads
import Keeper.Destinations.GraphBatch
import Keeper.Destinations.Outlook
import Keeper.Digest.Client
import Keeper.Engine.Accounting
import Keeper.Engine.Convergence
import Keeper.Engine.Execution
import Keeper.Engine.FirstSyncs
import Keeper.Engine.Results
import Keeper.Engine.RetryState
import Keeper.Engine.SparedCopies
import Keeper.Engine.Superseded
import Keeper.Engine.SyncCalendar
import Keeper.Engine.UnrecordedCopies
import Keeper.Feed.MovedSlots
import Keeper.Fetch.RedirectChains
import Keeper.FlushWorker.Accounting
import Keeper.Foundations.Effect
import Keeper.Foundations.Images
import Keeper.Foundations.JsArray
import Keeper.Ics.CalendarText
import Keeper.Ics.ContentLines
import Keeper.Ics.DeclaredZones
import Keeper.Ics.FeedOrder
import Keeper.Ics.FullDayEvents
import Keeper.Ics.IcsDates
import Keeper.Ics.LiveInstances
import Keeper.Ics.SeriesReferences
import Keeper.Ics.WithheldEvents
import Keeper.Ingest.Lane
import Keeper.Ingest.SerialRuns
import Keeper.Ingest.Wakes
import Keeper.Mappings.MappingChanges
import Keeper.Mappings.MutationLocks
import Keeper.Migrations.LegacyStates
import Keeper.Mutations.UpdateAgreement
import Keeper.Progress.Runtime
import Keeper.Push.NarrowedSweep
import Keeper.Push.Redelivery
import Keeper.RateLimiter.Grants
import Keeper.RateLimiter.Queue
import Keeper.RateLimiter.TaskQueue
import Keeper.Reads.EventFilters
import Keeper.Reads.ExactSlots
import Keeper.Reads.FreeTime
import Keeper.Reads.GetMatchesList
import Keeper.Reads.IngestedEvents
import Keeper.Recurrence.DateExclusions
import Keeper.Recurrence.Exactness
import Keeper.Recurrence.HighFrequency
import Keeper.Recurrence.Isolation
import Keeper.Recurrence.OffsetChanges
import Keeper.Recurrence.SharedInstants
import Keeper.Recurrence.WithheldSeries
import Keeper.Source.BudgetCoverage
import Keeper.Source.CalDavWindow
import Keeper.Source.DeltaIngest
import Keeper.Source.Ingest
import Keeper.Source.Listings
import Keeper.Source.ResourcesApart
import Keeper.Source.Rediscovery
import Keeper.Source.SnapshotIngest
import Keeper.Sync.BestPairing
import Keeper.Sync.ConflictFree
import Keeper.Sync.InSync
import Keeper.Sync.Matching
import Keeper.Sync.Operations
import Keeper.Sync.Ownership
import Keeper.Sync.Pairing
import Keeper.Sync.ReadOrder
import Keeper.Sync.Scope
import Keeper.Sync.Staleness
import Keeper.Sync.StoredAuthority
import Keeper.Sync.TargetedRead
import Keeper.Worker.ActiveDestinationJobs
