import EgoRs.Operation.Fencing
import EgoRs.Operation.Replay
import EgoRs.Service.CrossTenant
import EgoRs.Service.Exclusion
import EgoRs.Service.ReplayOrigin
import EgoRs.Operation.Linearizable
import EgoRs.Entity.ExactlyOnce
import EgoRs.Entity.SnapshotIsolation
import EgoRs.Persistence.BackfillHistory
import EgoRs.Persistence.RepositoryUpdates
import EgoRs.Persistence.PostgresReceiptRun
import EgoRs.Persistence.StoolapRaces
import EgoRs.Effects.RetryBudget
import EgoRs.Effects.CleanShutdown
import EgoRs.Effects.Orphans
import EgoRs.Effects.Ownership
import EgoRs.Effects.Restart
import EgoRs.ReadSide.Reclaim
import EgoRs.ReadSide.Takeover
import EgoRs.Effects.PostgresRefinement
import EgoRs.Effects.StoolapRefinement
import EgoRs.Entity.Registry
import EgoRs.Service.Guards
import EgoRs.Security.CacheBound
import EgoRs.Security.ClaimMapping
import EgoRs.Security.JwtProvider
import EgoRs.Entity.Cadence
import EgoRs.Persistence.RefusedAppend
import EgoRs.Persistence.Snapshots
import EgoRs.Effects.Compose
import EgoRs.Entity.Lifecycle
import EgoRs.Service.Retention
