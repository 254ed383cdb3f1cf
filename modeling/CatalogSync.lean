import CatalogSync.Application
import CatalogSync.Simulation.Workbench
import CatalogSync.Proofs.Json.RoundTrip
import CatalogSync.Proofs.Table
import CatalogSync.Proofs.Json.Fields
import CatalogSync.Proofs.Snapshot.Codec
import CatalogSync.Proofs.Time.Calendar
import CatalogSync.Proofs.Time.Timestamp
import CatalogSync.Proofs.Listener.Correlation
import CatalogSync.Proofs.Snapshot.Changes
import CatalogSync.Proofs.Harvest.Poll
import CatalogSync.Proofs.Harvest.Surroundings
import CatalogSync.Proofs.Harvest.Baseline
import CatalogSync.Proofs.Listener.Site
import CatalogSync.Proofs.Listener.Callback
import CatalogSync.Proofs.Uuid
import CatalogSync.Proofs.Listener.Mirror
import CatalogSync.Proofs.Harvest.Engine
import CatalogSync.Proofs.Listener.LostWrites
import CatalogSync.Proofs.Harvest.LostMappings
import CatalogSync.Proofs.Listener.StrayRecords
import CatalogSync.Proofs.Harvest.Duplicates
import CatalogSync.Proofs.Snapshot.Held
import CatalogSync.Proofs.Snapshot.News
import CatalogSync.Proofs.Harvest.Convergence
import CatalogSync.Proofs.Lister.Locate
import CatalogSync.Proofs.Listener.Ledger
import CatalogSync.Proofs.Harvest.Undisturbed
import CatalogSync.Proofs.Harvest.Replay
import CatalogSync.Proofs.Listener.Playback
import CatalogSync.Proofs.Harvest.CallLog
import CatalogSync.Proofs.Harvest.Alike
import CatalogSync.Proofs.Harvest.Lifecycle
import CatalogSync.Proofs.Harvest.Detour
import CatalogSync.Proofs.Harvest.Abandoned
import CatalogSync.Proofs.Harvest.Isolation
import CatalogSync.Proofs.Registry.Arrival
import CatalogSync.Proofs.Poller.Grid
import CatalogSync.Proofs.Harvest.Membership
import CatalogSync.Proofs.Poller.Endurance
import CatalogSync.Proofs.Snapshot.History
import CatalogSync.Proofs.Harvest.Quiet
import CatalogSync.Proofs.Store.Sharing
import CatalogSync.Proofs.Application.Restoration
import CatalogSync.Proofs.Config.Beginnings
import CatalogSync.Proofs.Config.Separation
import CatalogSync.Proofs.Harvest.LateFailure
import CatalogSync.Proofs.Listener.Discipline
import CatalogSync.Proofs.Config.Faults
import CatalogSync.Proofs.Ingest.Precedence
import CatalogSync.Proofs.Harvest.Fetches
import CatalogSync.Proofs.Snapshot.Versions
import CatalogSync.Proofs.Lister.Suffixes
import CatalogSync.Proofs.Catalog.Interruption
import CatalogSync.Proofs.Catalog.Spelling
import CatalogSync.Proofs.Harvest.Repointing
import CatalogSync.Proofs.Registry.Relaxation
import CatalogSync.Proofs.Application.Obstruction
