import Sahabino.AtomicCaptures
import Sahabino.Backend
import Sahabino.BatchDelivery
import Sahabino.Capture
import Sahabino.CaptureDiscipline
import Sahabino.CaptureService
import Sahabino.CaptureSound
import Sahabino.CaptureVerify
import Sahabino.CircuitBreaker
import Sahabino.ContainerSafety
import Sahabino.CrawlClosure
import Sahabino.CrawlLifecycle
import Sahabino.CrawlOutcome
import Sahabino.CrawlService
import Sahabino.CrawlerDrain
import Sahabino.CrawlerState
import Sahabino.Deadlock
import Sahabino.Decoding
import Sahabino.EgressLeases
import Sahabino.ErrorText
import Sahabino.Events
import Sahabino.ExactlyOnce
import Sahabino.FalseDuplicates
import Sahabino.Fencing
import Sahabino.Idempotency
import Sahabino.Inference
import Sahabino.Ingestion
import Sahabino.IngestionWorker
import Sahabino.InjectionSafety
import Sahabino.Lib.Budget
import Sahabino.Lib.Calendar
import Sahabino.Lib.Columns
import Sahabino.Lib.Csv
import Sahabino.Lib.Dict
import Sahabino.Lib.Holders
import Sahabino.Lib.Intervals
import Sahabino.Lib.Json
import Sahabino.Lib.LockOrder
import Sahabino.Lib.Noted
import Sahabino.Lib.OrderStatistics
import Sahabino.Lib.Polling
import Sahabino.Lib.Pool
import Sahabino.Lib.Prog
import Sahabino.Lib.Provenance
import Sahabino.Lib.PyLines
import Sahabino.Lib.PyText
import Sahabino.Lib.PyWords
import Sahabino.Lib.Register
import Sahabino.Lib.Slots
import Sahabino.Lib.SqlTokens
import Sahabino.Lib.Substring
import Sahabino.Lib.Table
import Sahabino.Lib.Transcript
import Sahabino.Lifecycle
import Sahabino.LiteralSql
import Sahabino.MetabaseMarkers
import Sahabino.MetabaseOwnership
import Sahabino.MetabasePlan
import Sahabino.MetabaseSettled
import Sahabino.MetabaseSync
import Sahabino.Metadata
import Sahabino.MetadataRows
import Sahabino.MetricChecks
import Sahabino.MetricOrder
import Sahabino.MetricRanges
import Sahabino.MetricTotals
import Sahabino.NetworkMetrics
import Sahabino.ObjectCleanup
import Sahabino.Packets
import Sahabino.Percentiles
import Sahabino.Pipeline
import Sahabino.PlayStoreClient
import Sahabino.Producer
import Sahabino.ProxyHistory
import Sahabino.ProxyPool
import Sahabino.Reconciliation
import Sahabino.Registry
import Sahabino.ReleaseBackup
import Sahabino.ReleaseContainers
import Sahabino.ReleaseHost
import Sahabino.ReleasePlay
import Sahabino.ReleaseSafety
import Sahabino.RenderSql
import Sahabino.ReviewBatch
import Sahabino.ReviewConvergence
import Sahabino.ReviewPages
import Sahabino.RowSpelling
import Sahabino.RowTotals
import Sahabino.Sentiment
import Sahabino.SentimentDrain
import Sahabino.SentimentRefinement
import Sahabino.SharedBreaker
import Sahabino.SharedPublisher
import Sahabino.StallTime
import Sahabino.StoredColumns
import Sahabino.SyncContent
import Sahabino.TableDomains
import Sahabino.TokenBucket
import Sahabino.TopicProvisioning
import Sahabino.TopicRaces
import Sahabino.TsharkEngine
import Sahabino.TsharkRow
import Sahabino.UdpBalance
import Sahabino.UploadDeadline
