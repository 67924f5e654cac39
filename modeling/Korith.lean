import Korith.Proofs.RetryContract
import Korith.Proofs.CApiReplay
import Korith.Amf.Budget
import Korith.Proofs.ExecutorStatics
import Korith.Proofs.ByteCorruption
import Korith.Proofs.DirectKvRoundTrip
import Korith.Proofs.Evictions
import Korith.Proofs.PrefixExtraction
import Korith.Proofs.QueueLease
import Korith.Proofs.StatusOrder
import Korith.Proofs.IdempotentSubmit
import Korith.Proofs.Redelivery
import Korith.Proofs.RouteTarget
import Korith.Proofs.ArtifactPaths
import Korith.Proofs.SnapshotTransfer
import Korith.Proofs.SnapshotOwner
import Korith.Proofs.CoordinatorIndex
import Korith.Proofs.TenantNamespaces
import Korith.Proofs.PoolFits
import Korith.Proofs.ConnectorLayers
import Korith.Proofs.PoolRestores
import Korith.Proofs.PrefillSkips
import Korith.Proofs.RateLimiters
import Korith.Proofs.LedgerStores
import Korith.Proofs.SnapshotPrune
import Korith.Proofs.SavingsFigures
import Korith.Proofs.SpecRecovery
import Korith.Proofs.NixlTenants
import Korith.Proofs.DecodeCache
import Korith.Proofs.SchedulerUpdate
import Korith.Proofs.DeployLogs
import Korith.Proofs.KeyVerdicts
import Korith.Proofs.SpecV2Draft
import Korith.Proofs.CoordinatorLookup
import Korith.Proofs.ConnectorLoads
import Korith.Proofs.MalformedSnapshot
import Korith.Platform.DecodeDecisions
import Korith.Platform.MetricsTensor
import Korith.Vllm.Packing
